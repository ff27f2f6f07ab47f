/-
Scanners: functions that take something off the front of a text, or fail and take nothing.
-/

namespace RdmRegistry.Toml

/-- A scanner: the result and the rest of the text. -/
abbrev Scan := StateT (List Char) Option

namespace Scan

variable {α β : Type}

/-- The next character, if it is of a kind. -/
def one (kind : Char → Bool) : Scan Char
  | c :: rest => if kind c then some (c, rest) else none
  | [] => none

/-- The next character, if it is the given one. -/
def char (c : Char) : Scan Unit := do
  let _ ← one (· == c)

/-- The given characters. -/
def word : List Char → Scan Unit
  | [] => pure ()
  | c :: rest => do
    char c
    word rest

/-- As many characters of a kind as there are. -/
def span (kind : Char → Bool) : Scan (List Char) := fun text =>
  some (text.takeWhile kind, text.dropWhile kind)

/-- Takes nothing, and only at the end of the text. -/
def done : Scan Unit
  | [] => some ((), [])
  | _ => none

/-- What a scanner takes again and again, as long as it takes anything. -/
def many (scan : Scan α) (text : List Char) : Option (List α × List Char) :=
  match scan text with
  | none => some ([], text)
  | some (a, rest) =>
    if rest.length < text.length then
      (many scan rest).map fun (items, rest) => (a :: items, rest)
    else some ([], text)
  termination_by text.length

/-- What a scanner takes again and again, with something between. -/
def separated (scan : Scan α) (between : Scan β) : Scan (List α) := do
  let first ← scan
  let others ← many (do
    let _ ← between
    scan)
  return first :: others

/-- What a scanner takes, and the characters that it took for it. -/
def lexeme (scan : Scan α) : Scan (α × String) := fun text =>
  (scan text).map fun (a, rest) =>
    ((a, String.ofList (text.take (text.length - rest.length))), rest)

/-- Goes on only with a result that is as required. -/
def require (condition : Bool) : Scan Unit :=
  if condition then pure () else failure

def blanks : Scan Unit := do
  let _ ← span fun c => c == ' ' || c == '\t'

/-- The end of a line: a line feed, with or without a carriage return before it. -/
def newline : Scan Unit :=
  word ['\n'] <|> word ['\r', '\n']

/-- A character that may stand in comments and strings: any but the controls, the tab apart. -/
def isVisible (c : Char) : Bool :=
  c == '\t' || (' ' ≤ c && c != '\x7f')

/-- A comment, up to the end of the line. -/
def comment : Scan Unit := do
  char '#'
  let _ ← span isVisible

/-- What may follow on a line after all else: blanks, a comment, the end of the line or text. -/
def lineEnd : Scan Unit := do
  blanks
  let _ ← optional comment
  newline <|> done

/-- Blanks, comments and ends of lines. -/
def gaps : Scan Unit := do
  blanks
  let _ ← many (do
    let _ ← optional comment
    newline
    blanks)

end Scan

end RdmRegistry.Toml
