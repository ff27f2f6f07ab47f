/-
Text between double quotes, as debug listings show it: what cannot be read off the page is
written as an escape.
-/
import RdmRegistry.Text.Combining
import RdmRegistry.Text.Hex
import RdmRegistry.Text.Unprintable
import RdmRegistry.Text.Utf8

namespace RdmRegistry.Text

/-- A character by its code point: `\u`, then the hexadecimal digits in braces. -/
def codeEscape (c : Char) : List Char :=
  ['\\', 'u', '\x7b'] ++ hexDigits c.toNat ++ ['\x7d']

/-- One character inside quotes. Quotes, backslashes and four controls have an escape of their
own; marks that would sit on the character before them and characters without a printed form
are given by code point. -/
def quotedChar (c : Char) : List Char :=
  match c with
  | '\x00' => ['\\', '0']
  | '\t' => ['\\', 't']
  | '\n' => ['\\', 'n']
  | '\r' => ['\\', 'r']
  | '\\' => ['\\', '\\']
  | '"' => ['\\', '"']
  | c => if isCombining c || isUnprintable c then codeEscape c else [c]

def quoted (s : String) : String :=
  String.ofList ('"' :: s.toList.flatMap quotedChar ++ ['"'])

/-- One piece of raw bytes inside quotes. A byte that belongs to no character is given by two
capital digits. -/
def quotedPiece : Utf8.Piece → List Char
  | .char c => quotedChar c
  | .bad bytes => bytes.flatMap fun b =>
      ['\\', 'x'] ++ (hexPadded 2 b.toNat).map Char.toUpper

def quotedBytes (bytes : List UInt8) : String :=
  String.ofList ('"' :: (Utf8.pieces bytes).flatMap quotedPiece ++ ['"'])

end RdmRegistry.Text
