/-
Objects of JSON without blanks, as far as fields go: null, `true` and `false`, strings, and an empty
array for any other value. Unlike settings files they write a null.

`FlatJson.lossless`: every object is read as it was written, whatever its strings hold. A character
has one spelling, behind which anything may follow, so strings, members and objects are read piece by
piece.
-/
import RdmRegistry.Proofs.Formats
import RdmRegistry.Proofs.Toml.WrittenStrings

namespace RdmRegistry.FlatJson

open Toml Toml.Scan

/-! ## Writing -/

/-- A character between quotes; controls have codes where they have no letter. -/
def writtenChar (c : Char) : List Char :=
  match c with
  | '"' => ['\\', '"']
  | '\\' => ['\\', '\\']
  | '\x08' => ['\\', 'b']
  | '\t' => ['\\', 't']
  | '\n' => ['\\', 'n']
  | '\x0c' => ['\\', 'f']
  | '\r' => ['\\', 'r']
  | c => if c < ' ' then ['\\', 'u'] ++ Text.hexPadded 4 c.toNat else [c]

def writtenString (s : String) : List Char :=
  '"' :: (s.toList.flatMap writtenChar ++ ['"'])

def writtenValue : Field → List Char
  | .null => ['n', 'u', 'l', 'l']
  | .flag true => ['t', 'r', 'u', 'e']
  | .flag false => ['f', 'a', 'l', 's', 'e']
  | .text s => writtenString s
  | .other => ['[', ']']

def writtenMember (field : String × Field) : List Char :=
  writtenString field.1 ++ ':' :: writtenValue field.2

def writtenMembers : Fields → List Char
  | [] => []
  | field :: fields => writtenMember field ++ fields.flatMap fun next => ',' :: writtenMember next

/-! ## Reading -/

/-- What follows the backslash of an escape; half of a surrogate pair is no character. -/
def escaped : Scan Char := do
  match ← one (fun _ => true) with
  | '"' => return '"'
  | '\\' => return '\\'
  | '/' => return '/'
  | 'b' => return '\x08'
  | 't' => return '\t'
  | 'n' => return '\n'
  | 'f' => return '\x0c'
  | 'r' => return '\r'
  | 'u' => codePoint 4
  | _ => failure

def stringChar : Scan Char :=
  one (fun c => ' ' ≤ c && c != '"' && c != '\\') <|> do
    char '\\'
    escaped

def string : Scan String := do
  return String.ofList (← shortString '"' stringChar)

def value : Scan Field :=
  (do word ['n', 'u', 'l', 'l']; return .null) <|>
    (do word ['t', 'r', 'u', 'e']; return .flag true) <|>
    (do word ['f', 'a', 'l', 's', 'e']; return .flag false) <|>
    (do return .text (← string)) <|>
    (do word ['[', ']']; return .other)

def member : Scan (String × Field) := do
  let name ← string
  char ':'
  return (name, ← value)

def object : Scan Fields := do
  char '\x7b'
  let members ← optional (separated member (char ','))
  char '\x7d'
  done
  return members.getD []

def format : Format where
  write fields := String.ofList ('\x7b' :: (writtenMembers fields ++ ['\x7d']))
  read? text := (object text.toList).map Prod.fst

/-! ## Reading what is written -/

variable {tail : List Char}

theorem stringChar_escape {text : List Char} {c : Char} (h : escaped text = some (c, tail)) :
    stringChar ('\\' :: text) = some (c, tail) := by
  have hplain : one (fun c => ' ' ≤ c && c != '"' && c != '\\') ('\\' :: text) = none :=
    one_of_neg fun d hd => by
      obtain rfl : '\\' = d := by simpa using hd
      rfl
  rw [stringChar, orElse_of_none hplain, bind_of_some (char_cons '\\' text)]
  exact h

/-- The digits of a control's code are digits, four, and spell the code. -/
theorem hexPadded_of_control : ∀ n < 32,
    (Text.hexPadded 4 n).length = 4 ∧ (Text.hexPadded 4 n).all isHexDigit = true ∧
      numberOf 16 (Text.hexPadded 4 n) = n := by
  decide +kernel

theorem codePoint_of_control {c : Char} (h : c < ' ') :
    codePoint 4 (Text.hexPadded 4 c.toNat ++ tail) = some (c, tail) := by
  have hlt : c.toNat < 32 := h
  obtain ⟨hlength, hhex, hspells⟩ := hexPadded_of_control c.toNat hlt
  have hvalid : c.toNat.isValidChar := c.valid
  rw [codePoint_append hlength hhex (by rwa [hspells]), hspells, Char.ofNat_toNat]

theorem stringChar_writtenChar (c : Char) :
    stringChar (writtenChar c ++ tail) = some (c, tail) := by
  unfold writtenChar
  split
  case h_8 hquote hslash _ _ _ _ _ =>
    by_cases hcontrol : c < ' '
    · rw [if_pos hcontrol]
      exact stringChar_escape (codePoint_of_control hcontrol)
    · have hle : ' ' ≤ c := Char.not_lt.mp hcontrol
      rw [if_neg hcontrol]
      have hplain : c ≠ '"' ∧ c ≠ '\\' := ⟨hquote, hslash⟩
      exact orElse_of_some (one_of_pos (by simp [hle, hplain]))
  all_goals exact stringChar_escape rfl

theorem writtenChar_ne_nil (c : Char) : writtenChar c ≠ [] := by
  unfold writtenChar
  split
  case h_8 => split <;> simp
  all_goals simp

theorem string_writtenString (s : String) : string (writtenString s ++ tail) = some (s, tail) := by
  have hstop : stringChar ('"' :: tail) = none :=
    (orElse_of_none (one_of_neg (by simp))).trans (bind_of_none (char_of_ne (by simp)) _)
  have hbody : many stringChar (s.toList.flatMap writtenChar ++ '"' :: tail) =
      some (s.toList.map id, '"' :: tail) :=
    many_flatMap hstop fun c _ => ⟨writtenChar_ne_nil c, fun after => stringChar_writtenChar c⟩
  have htext : writtenString s ++ tail = '"' :: (s.toList.flatMap writtenChar ++ '"' :: tail) := by
    simp [writtenString]
  have hshort : shortString '"' stringChar (writtenString s ++ tail) = some (s.toList, tail) := by
    rw [htext, shortString, bind_of_some (char_cons '"' _), bind_of_some hbody,
      bind_of_some (char_cons '"' _), List.map_id]
    rfl
  rw [string, bind_of_some hshort, String.ofList_toList]
  rfl

theorem word_of_ne {c d : Char} {others text : List Char} (h : d ≠ c) :
    word (c :: others) (d :: text) = none :=
  bind_of_none (char_of_ne (by simpa using h)) _

theorem value_writtenValue (field : Field) :
    value (writtenValue field ++ tail) = some (field, tail) := by
  have hskip {c : Char} {others : List Char} {result : Field} {text : List Char} {d : Char}
      (h : d ≠ c) : (do word (c :: others); return result : Scan Field) (d :: text) = none :=
    bind_of_none (word_of_ne h) _
  have htake {letters : List Char} {result : Field} :
      (do word letters; return result : Scan Field) (letters ++ tail) = some (result, tail) :=
    bind_of_some (word_append letters tail) _
  cases field with
  | null => exact orElse_of_some htake
  | flag b =>
    cases b with
    | true => exact (orElse_of_none (hskip (by decide))).trans (orElse_of_some htake)
    | false =>
      exact (orElse_of_none (hskip (by decide))).trans
        ((orElse_of_none (hskip (by decide))).trans (orElse_of_some htake))
  | text s =>
    refine (orElse_of_none (hskip (by decide))).trans ((orElse_of_none (hskip (by decide))).trans
      ((orElse_of_none (hskip (by decide))).trans (orElse_of_some ?_)))
    exact bind_of_some (string_writtenString s) _
  | other =>
    have hstring : (do return .text (← string) : Scan Field) ('[' :: ']' :: tail) = none :=
      bind_of_none (bind_of_none (bind_of_none (char_of_ne (by simp)) _) _) _
    exact (orElse_of_none (hskip (by decide))).trans ((orElse_of_none (hskip (by decide))).trans
      ((orElse_of_none (hskip (by decide))).trans ((orElse_of_none hstring).trans htake)))

theorem member_writtenMember (field : String × Field) :
    member (writtenMember field ++ tail) = some (field, tail) := by
  have htext : writtenMember field ++ tail =
      writtenString field.1 ++ ':' :: (writtenValue field.2 ++ tail) := by simp [writtenMember]
  rw [htext, member, bind_of_some (string_writtenString field.1), bind_of_some (char_cons ':' _),
    bind_of_some (value_writtenValue field.2)]
  rfl

theorem members_writtenMembers (field : String × Field) (fields : Fields) :
    separated member (char ',') (writtenMembers (field :: fields) ++ '\x7d' :: tail) =
      some (field :: fields, '\x7d' :: tail) := by
  have hstop : (do let _ ← char ','; member : Scan (String × Field)) ('\x7d' :: tail) = none :=
    bind_of_none (char_of_ne (by simp)) _
  have hothers : many (do let _ ← char ','; member)
      (fields.flatMap (fun next => ',' :: writtenMember next) ++ '\x7d' :: tail) =
        some (fields.map id, '\x7d' :: tail) :=
    many_flatMap hstop fun next _ => ⟨by simp, fun after =>
      (bind_of_some (char_cons ',' _) _).trans (member_writtenMember next)⟩
  rw [writtenMembers, List.append_assoc, separated, bind_of_some (member_writtenMember field),
    bind_of_some hothers, List.map_id]
  rfl

theorem object_written (fields : Fields) :
    object ('\x7b' :: (writtenMembers fields ++ ['\x7d'])) = some (fields, []) := by
  have hmembers : optional (separated member (char ',')) (writtenMembers fields ++ ['\x7d']) =
      some (if fields = [] then none else some fields, ['\x7d']) := by
    cases fields with
    | nil => exact optional_of_none (bind_of_none (bind_of_none (bind_of_none (bind_of_none
        (char_of_ne (by simp [writtenMembers])) _) _) _) _)
    | cons field fields =>
      rw [if_neg (by simp)]
      exact optional_of_some (members_writtenMembers field fields)
  rw [object, bind_of_some (char_cons '\x7b' _), bind_of_some hmembers,
    bind_of_some (char_cons '\x7d' _)]
  cases fields <;> rfl

theorem lossless : format.Lossless := by
  intro fields h
  refine ⟨fields, ?_, .refl h⟩
  show (object (String.ofList _).toList).map Prod.fst = _
  rw [String.toList_ofList, object_written]
  rfl

end RdmRegistry.FlatJson
