/-
How strings are written in TOML documents: plainly in double quotes if that needs no escape,
between single quotes if those need none, over many lines with double and then with single quotes,
and with escapes if all else fails.
-/
import RdmRegistry.Text.Hex

namespace RdmRegistry.Toml

/-- The length of the longest run of a character. -/
def longestRun (c : Char) (text : List Char) : Nat :=
  (text.foldl (fun (run, longest) d =>
    if d == c then (run + 1, max longest (run + 1)) else (0, longest)) (0, 0)).2

/-- A control that only an escape can stand for; tabs and line feeds have other ways. -/
def needsCode (c : Char) : Bool :=
  (c < ' ' && c != '\t' && c != '\n') || c == '\x7f'

/-- One character between double quotes, other than a quote. Over many lines a line feed stands
for itself. -/
def writtenChar (long : Bool) (c : Char) : List Char :=
  match c with
  | '\x08' => ['\\', 'b']
  | '\t' => ['\\', 't']
  | '\n' => if long then ['\n'] else ['\\', 'n']
  | '\x0c' => ['\\', 'f']
  | '\r' => ['\\', 'r']
  | '\\' => ['\\', '\\']
  | c =>
    if needsCode c then ['\\', 'u'] ++ (Text.hexPadded 4 c.toNat).map Char.toUpper else [c]

/-- Text between double quotes, after so many quotes in a row. Over many lines two quotes in a row
stand for themselves, and every third is escaped. -/
def writtenBody (long : Bool) (quotes : Nat) : List Char → List Char
  | [] => []
  | '"' :: rest =>
    if long && quotes < 2 then '"' :: writtenBody long (quotes + 1) rest
    else '\\' :: '"' :: writtenBody long 0 rest
  | c :: rest => writtenChar long c ++ writtenBody long 0 rest

/-- Text between delimiters; an opening over many lines is followed by an end of line if the text
has one. -/
def enclosed (delimiter : List Char) (long : Bool) (text body : List Char) : List Char :=
  delimiter ++ (if long && text.contains '\n' then ['\n'] else []) ++ body ++ delimiter

def writtenString (s : String) : String :=
  let text := s.toList
  let coded := text.any needsCode
  let slashed := text.contains '\\'
  let newline := text.contains '\n'
  let basic (long : Bool) :=
    enclosed (List.replicate (if long then 3 else 1) '"') long text (writtenBody long 0 text)
  let literal (long : Bool) :=
    enclosed (List.replicate (if long then 3 else 1) '\'') long text text
  String.ofList <|
    if !coded && !slashed && !text.contains '"' && !newline then basic false
    else if !coded && !text.contains '\'' && !newline then literal false
    else if !coded && !slashed && longestRun '"' text ≤ 2 then basic true
    else if !coded && longestRun '\'' text ≤ 2 then literal true
    else basic newline

end RdmRegistry.Toml
