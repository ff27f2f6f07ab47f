/-
Strings of TOML documents: between single or double quotes, one for a line or three for many.
Double quotes allow escapes. Behind an opening of three quotes one end of line is left out, and up
to two quotes may stand inside or directly before the closing three.
-/
import RdmRegistry.Toml.Scan

namespace RdmRegistry.Toml

open Scan

def isHexDigit (c : Char) : Bool :=
  c.isDigit || ('a' ≤ c && c ≤ 'f') || ('A' ≤ c && c ≤ 'F')

/-- The value of a digit of a number in base sixteen or less. -/
def digitValue (c : Char) : Nat :=
  if c.isDigit then c.toNat - '0'.toNat
  else if 'a' ≤ c then c.toNat - 'a'.toNat + 10
  else c.toNat - 'A'.toNat + 10

/-- The number that digits spell in a base. -/
def numberOf (base : Nat) (digits : List Char) : Nat :=
  digits.foldl (fun n c => n * base + digitValue c) 0

/-- The character with a code point of so many hexadecimal digits. -/
def codePoint (digits : Nat) : Scan Char := do
  let spelled ← many (one isHexDigit)
  require (digits ≤ spelled.length)
  let rest := spelled.drop digits
  modify (rest ++ ·)
  let code := numberOf 16 (spelled.take digits)
  if code.isValidChar then return Char.ofNat code else failure

/-- What follows the backslash of an escape. -/
def escaped : Scan Char := do
  match ← one (fun _ => true) with
  | 'b' => return '\x08'
  | 't' => return '\t'
  | 'n' => return '\n'
  | 'f' => return '\x0c'
  | 'r' => return '\r'
  | '"' => return '"'
  | '\\' => return '\\'
  | 'u' => codePoint 4
  | 'U' => codePoint 8
  | _ => failure

def basicChar : Scan Char :=
  one (fun c => isVisible c && c != '"' && c != '\\') <|> do
    char '\\'
    escaped

def literalChar : Scan Char :=
  one fun c => isVisible c && c != '\''

/-- An end of line that is escaped away with all blanks and ends of lines after it. -/
def joinedLines : Scan Unit := do
  char '\\'
  blanks
  newline
  blanks
  let _ ← many (do
    newline
    blanks)

/-- One or two quotes with none after them. -/
def innerQuotes (quote : Char) : Scan (List Char) := do
  let run ← span (· == quote)
  require (run.length == 1 || run.length == 2)
  return run

/-- The closing three quotes, and the quotes of the string directly before them. -/
def closingQuotes (quote : Char) : Scan (List Char) := do
  let run ← span (· == quote)
  require (3 ≤ run.length)
  modify (run.drop 5 ++ ·)
  return (run.take 5).drop 3

/-- An end of line inside a string, always one line feed. -/
def innerNewline : Scan (List Char) := do
  newline
  return ['\n']

/-- A string over many lines, made of the given characters and pieces. -/
def longString (quote : Char) (piece : Scan (List Char)) : Scan (List Char) := do
  word [quote, quote, quote]
  let _ ← optional newline
  let body ← many (piece <|> innerNewline <|> innerQuotes quote)
  let last ← closingQuotes quote
  return body.flatten ++ last

/-- A string on one line, made of the given characters. -/
def shortString (quote : Char) (piece : Scan Char) : Scan (List Char) := do
  char quote
  let body ← many piece
  char quote
  return body

/-- A string on one line, in quotes of either kind. -/
def lineString : Scan String := do
  return String.ofList (← shortString '"' basicChar <|> shortString '\'' literalChar)

/-- A character as a piece of a string. -/
def asPiece (scan : Scan Char) : Scan (List Char) := do
  return [← scan]

def anyString : Scan String :=
  (do
    return String.ofList (←
      longString '"' (asPiece basicChar <|> (do joinedLines; return [])) <|>
        longString '\'' (asPiece literalChar))) <|>
    lineString

end RdmRegistry.Toml
