/-
Written strings are read again. A string is written in one of five ways, by what stands in it, and
`anyString_writtenString` says that each is read as the string it was written for, up to its closing
quotes and not beyond.

On one line every character has a spelling of its own, whatever stands around it. Over many lines quotes
have none: up to two of them in a row stand for themselves, and the closing three stand directly behind
the last ones, so that what is shown is that a written text is a `LongBody`.
-/
import RdmRegistry.Proofs.Toml.LongStrings

namespace RdmRegistry.Toml

open Scan

variable {rest tail : List Char}

/-! ## Single characters -/

theorem codePoint_append {digits : List Char} (hlength : digits.length = 4)
    (hdigits : digits.all isHexDigit = true) (hvalid : (numberOf 16 digits).isValidChar) :
    codePoint 4 (digits ++ tail) = some (Char.ofNat (numberOf 16 digits), tail) := by
  have hhex : ∀ c ∈ digits, isHexDigit c = true := List.all_eq_true.mp hdigits
  have hspelled : many (one isHexDigit) (digits ++ tail) =
      some (digits ++ tail.takeWhile isHexDigit, tail.dropWhile isHexDigit) := by
    rw [many_one, List.takeWhile_append_of_pos hhex, List.dropWhile_append_of_pos hhex]
  have htake : (digits ++ tail.takeWhile isHexDigit).take 4 = digits := by
    rw [← hlength, List.take_left]
  have hdrop : (digits ++ tail.takeWhile isHexDigit).drop 4 = tail.takeWhile isHexDigit := by
    rw [← hlength, List.drop_left]
  rw [codePoint, bind_of_some hspelled, bind_of_some (require_of_true (by simp [hlength]))]
  simp only [htake, hdrop, if_pos hvalid]
  -- The digits that were taken too much go back in front of the rest.
  exact congrArg (fun text => some (Char.ofNat (numberOf 16 digits), text))
    List.takeWhile_append_dropWhile

/-- The digits of a code are digits, four, and spell the code. -/
theorem hexPadded_of_lt : ∀ n < 128,
    ((Text.hexPadded 4 n).map Char.toUpper).length = 4 ∧
      ((Text.hexPadded 4 n).map Char.toUpper).all isHexDigit = true ∧
      numberOf 16 ((Text.hexPadded 4 n).map Char.toUpper) = n := by
  decide +kernel

theorem toNat_lt_of_needsCode {c : Char} (h : needsCode c = true) : c.toNat < 128 := by
  rw [needsCode, Bool.or_eq_true] at h
  obtain hcontrol | hdelete := h
  · have hlt : c < ' ' := by
      rw [Bool.and_eq_true, Bool.and_eq_true] at hcontrol
      exact of_decide_eq_true hcontrol.1.1
    have hval : c.toNat < ' '.toNat := hlt
    exact Nat.lt_trans hval (by decide)
  · rw [eq_of_beq hdelete]
    decide

theorem isVisible_of_not_needsCode {c : Char} (h : needsCode c = false) (hn : c ≠ '\n') :
    isVisible c = true := by
  simp only [needsCode, Bool.or_eq_false_iff, Bool.and_eq_false_iff, decide_eq_false_iff_not,
    bne_eq_false_iff_eq, beq_eq_false_iff_ne] at h
  obtain ⟨hcontrol, hdelete⟩ := h
  rw [isVisible, Bool.or_eq_true]
  by_cases ht : c = '\t'
  · exact .inl (by simp [ht])
  · have hle : ' ' ≤ c := by
      obtain (h | h) | h := hcontrol
      · exact Char.not_lt.mp h
      · exact absurd h ht
      · exact absurd h hn
    exact .inr (by simp [hle, hdelete])

theorem basicChar_of_visible {c : Char} (hv : isVisible c = true) (hq : c ≠ '"') (hb : c ≠ '\\') :
    basicChar (c :: tail) = some (c, tail) :=
  orElse_of_some (one_of_pos (by simp [hv, hq, hb]))

theorem basicChar_escape {text : List Char} {c : Char} (h : escaped text = some (c, tail)) :
    basicChar ('\\' :: text) = some (c, tail) := by
  have hplain : one (fun c => isVisible c && c != '"' && c != '\\') ('\\' :: text) = none :=
    one_of_neg fun d hd => by
      obtain rfl : '\\' = d := by simpa using hd
      rfl
  rw [basicChar, orElse_of_none hplain, bind_of_some (char_cons '\\' text)]
  exact h

/-- A character between double quotes is read again, unless it is an end of line as it stands. -/
theorem basicChar_writtenChar {long : Bool} {c : Char} (hq : c ≠ '"') (hn : long = true → c ≠ '\n') :
    basicChar (writtenChar long c ++ tail) = some (c, tail) := by
  unfold writtenChar
  split
  case h_1 | h_2 | h_4 | h_5 | h_6 => exact basicChar_escape rfl
  case h_3 =>
    cases long with
    | true => exact absurd rfl (hn rfl)
    | false => exact basicChar_escape rfl
  case h_7 hnl _ _ hb =>
    by_cases hcode : needsCode c = true
    · have hlt := toNat_lt_of_needsCode hcode
      obtain ⟨hlength, hhex, hspells⟩ := hexPadded_of_lt c.toNat hlt
      have hvalid : c.toNat.isValidChar := c.valid
      have hpoint : codePoint 4 ((Text.hexPadded 4 c.toNat).map Char.toUpper ++ tail) =
          some (c, tail) := by
        rw [codePoint_append hlength hhex (by rwa [hspells]), hspells, Char.ofNat_toNat]
      rw [if_pos hcode]
      exact basicChar_escape hpoint
    · rw [if_neg hcode]
      exact basicChar_of_visible
        (isVisible_of_not_needsCode (by simpa using hcode) hnl) hq hb

/-- A written character is an escape or stands for itself. -/
theorem head_writtenChar (long : Bool) (c : Char) :
    (∃ others, writtenChar long c = '\\' :: others) ∨ writtenChar long c = [c] ∧ c ≠ '\r' := by
  unfold writtenChar
  split
  case h_3 =>
    cases long with
    | true => exact .inr ⟨rfl, by decide⟩
    | false => exact .inl ⟨_, rfl⟩
  case h_7 hr _ =>
    split
    · exact .inl ⟨_, rfl⟩
    · exact .inr ⟨rfl, hr⟩
  all_goals exact .inl ⟨_, rfl⟩

theorem basicChar_quote : basicChar ('\\' :: '"' :: tail) = some ('"', tail) := rfl

/-! ## Strings on one line -/

/-- A character on one line between double quotes. -/
def spelled (c : Char) : List Char :=
  if c = '"' then ['\\', '"'] else writtenChar false c

theorem writtenBody_false (quotes : Nat) (text : List Char) :
    writtenBody false quotes text = text.flatMap spelled := by
  induction text generalizing quotes with
  | nil => rfl
  | cons c text ih =>
    rw [List.flatMap_cons]
    by_cases hc : c = '"'
    · subst hc
      simp [writtenBody, spelled, ih]
    · simp [writtenBody, spelled, hc, ih]

theorem head_spelled (c : Char) : ∃ d others, spelled c = d :: others ∧ d ≠ '"' := by
  rw [spelled]
  split
  case isTrue => exact ⟨'\\', _, rfl, by decide⟩
  case isFalse hc =>
    obtain ⟨others, hescape⟩ | ⟨hplain, -⟩ := head_writtenChar false c
    · exact ⟨'\\', others, hescape, by decide⟩
    · exact ⟨c, [], hplain, hc⟩

theorem basicChar_spelled (c : Char) : basicChar (spelled c ++ tail) = some (c, tail) := by
  rw [spelled]
  split
  case isTrue hc => rw [hc]; rfl
  case isFalse hc => exact basicChar_writtenChar hc (by simp)

theorem shortString_basic (quotes : Nat) (text rest : List Char) :
    shortString '"' basicChar ('"' :: (writtenBody false quotes text ++ '"' :: rest)) =
      some (text, rest) := by
  have hbody : many basicChar (text.flatMap spelled ++ '"' :: rest) =
      some (text.map id, '"' :: rest) := by
    refine many_flatMap rfl fun c _ => ⟨?_, fun tail => basicChar_spelled c⟩
    obtain ⟨d, others, hspelled, -⟩ := head_spelled c
    simp [hspelled]
  rw [shortString, bind_of_some (char_cons '"' _), writtenBody_false, bind_of_some hbody,
    bind_of_some (char_cons '"' _), List.map_id]
  rfl

theorem shortString_literal {text : List Char} (hv : ∀ c ∈ text, isVisible c = true)
    (hq : '\'' ∉ text) :
    shortString '\'' literalChar ('\'' :: (text ++ '\'' :: rest)) = some (text, rest) := by
  have hplain : ∀ c ∈ text, (isVisible c && c != '\'') = true := fun c hc => by
    have hne : c ≠ '\'' := fun he => hq (he ▸ hc)
    simp [hv c hc, hne]
  have hbody : many literalChar (text ++ '\'' :: rest) = some (text, '\'' :: rest) := by
    rw [literalChar, many_one, List.takeWhile_append_of_pos hplain,
      List.dropWhile_append_of_pos hplain]
    simp
  rw [shortString, bind_of_some (char_cons '\'' _), bind_of_some hbody,
    bind_of_some (char_cons '\'' _)]
  rfl

/-! ## Strings over many lines -/

/-- A character between triple double quotes, or ends of lines that are escaped away. -/
def basicPiece : Scan (List Char) :=
  asPiece basicChar <|> do
    joinedLines
    return []

def literalPiece : Scan (List Char) :=
  asPiece literalChar

theorem asPiece_of_some {scan : Scan Char} {c : Char} {text : List Char}
    (h : scan text = some (c, rest)) : asPiece scan text = some ([c], rest) := by
  rw [asPiece, bind_of_some h]
  rfl

theorem leaves_basicPiece : Leaves '"' basicPiece where
  ne_newline := by decide
  quote _ := rfl
  newline _ := rfl

theorem leaves_literalPiece : Leaves '\'' literalPiece where
  ne_newline := by decide
  quote _ := rfl
  newline _ := rfl

theorem spells_of_basicChar {c : Char} {word : List Char}
    (h : ∀ tail, basicChar (word ++ tail) = some (c, tail))
    (hhead : ∃ d others, word = d :: others ∧ d ≠ '"' ∧ d ≠ '\r' ∧ (d = '\n' → c = '\n')) :
    Spells '"' basicPiece c word where
  taken tail := orElse_of_some (orElse_of_some (asPiece_of_some (h tail)))
  head := hhead

theorem spells_writtenChar {c : Char} (hq : c ≠ '"') :
    Spells '"' basicPiece c (writtenChar true c) := by
  by_cases hn : c = '\n'
  · subst hn
    exact spells_newline leaves_basicPiece
  · refine spells_of_basicChar (fun tail => basicChar_writtenChar hq fun _ => hn) ?_
    obtain ⟨others, hescape⟩ | ⟨hplain, hr⟩ := head_writtenChar true c
    · exact ⟨'\\', others, hescape, by decide, by decide, fun h => absurd h (by decide)⟩
    · exact ⟨c, [], hplain, hq, hr, id⟩

theorem longBody_writtenBody (quotes : Nat) (text : List Char) :
    LongBody '"' basicPiece quotes text (writtenBody true quotes text) := by
  induction text generalizing quotes with
  | nil => exact .nil quotes
  | cons c text ih =>
    by_cases hc : c = '"'
    · subst hc
      by_cases hlt : quotes < 2
      · have hplain : writtenBody true quotes ('"' :: text) =
            '"' :: writtenBody true (quotes + 1) text := by simp [writtenBody, hlt]
        rw [hplain]
        exact .quote hlt (ih _)
      · have hescaped : writtenBody true quotes ('"' :: text) =
            ['\\', '"'] ++ writtenBody true 0 text := by simp [writtenBody, hlt]
        rw [hescaped]
        exact .char (spells_of_basicChar (fun _ => basicChar_quote)
          ⟨'\\', _, rfl, by decide, by decide, fun h => absurd h (by decide)⟩) (ih _)
    · have hchar : writtenBody true quotes (c :: text) =
          writtenChar true c ++ writtenBody true 0 text := by simp [writtenBody]
      rw [hchar]
      exact .char (spells_writtenChar hc) (ih _)

theorem spells_literal {c : Char} (hq : c ≠ '\'') (hcode : needsCode c = false) :
    Spells '\'' literalPiece c [c] := by
  by_cases hn : c = '\n'
  · subst hn
    exact spells_newline leaves_literalPiece
  · have hv := isVisible_of_not_needsCode hcode hn
    have hr : c ≠ '\r' := by
      rintro rfl
      exact absurd hcode (by decide)
    have htake (tail : List Char) : literalChar (c :: tail) = some (c, tail) :=
      one_of_pos (by simp [hv, hq])
    exact ⟨fun tail => orElse_of_some (asPiece_of_some (htake tail)), c, [], rfl, hq, hr, id⟩

/-- One more character of a text in the search for the longest run of one. -/
def countRun (c : Char) (runs : Nat × Nat) (d : Char) : Nat × Nat :=
  if d == c then (runs.1 + 1, max runs.2 (runs.1 + 1)) else (0, runs.2)

theorem longestRun_eq (c : Char) (text : List Char) :
    longestRun c text = (text.foldl (countRun c) (0, 0)).2 := rfl

theorem le_foldl_countRun (c : Char) (text : List Char) (runs : Nat × Nat) :
    runs.2 ≤ (text.foldl (countRun c) runs).2 := by
  induction text generalizing runs with
  | nil => exact Nat.le_refl _
  | cons d text ih =>
    have hstep : runs.2 ≤ (countRun c runs d).2 := by
      rw [countRun]
      split
      · exact Nat.le_max_left _ _
      · exact Nat.le_refl _
    exact Nat.le_trans hstep (ih _)

theorem longBody_literal {text : List Char} (hcode : ∀ c ∈ text, needsCode c = false)
    {quotes longest : Nat} (hrun : (text.foldl (countRun '\'') (quotes, longest)).2 ≤ 2) :
    LongBody '\'' literalPiece quotes text text := by
  induction text generalizing quotes longest with
  | nil => exact .nil quotes
  | cons c text ih =>
    obtain ⟨hc, htext⟩ := List.forall_mem_cons.mp hcode
    rw [List.foldl_cons] at hrun
    by_cases hq : c = '\''
    · subst hq
      have hstep : countRun '\'' (quotes, longest) '\'' =
          (quotes + 1, max longest (quotes + 1)) := rfl
      have hle := le_foldl_countRun '\'' text (countRun '\'' (quotes, longest) '\'')
      rw [hstep] at hrun hle
      exact .quote (by simp only at hle; omega) (ih htext hrun)
    · have hstep : countRun '\'' (quotes, longest) c = (0, longest) := by simp [countRun, hq]
      rw [hstep] at hrun
      have hbody : LongBody '\'' literalPiece quotes (c :: text) ([c] ++ text) :=
        .char (spells_literal hq hc) (ih htext hrun)
      exact hbody

/-! ## Strings of either kind -/

theorem anyString_of_long {text : List Char} {s : String}
    (h : (longString '"' basicPiece <|> longString '\'' literalPiece) text =
      some (s.toList, rest)) : anyString text = some (s, rest) := by
  refine orElse_of_some ((bind_of_some h _).trans ?_)
  rw [String.ofList_toList]
  rfl

theorem anyString_of_line {text : List Char} {s : String}
    (hbasic : longString '"' basicPiece text = none)
    (hliteral : longString '\'' literalPiece text = none)
    (h : (shortString '"' basicChar <|> shortString '\'' literalChar) text =
      some (s.toList, rest)) : anyString text = some (s, rest) := by
  have hlong : (longString '"' basicPiece <|> longString '\'' literalPiece) text = none :=
    (orElse_of_none hbasic).trans hliteral
  refine (orElse_of_none (bind_of_none hlong _)).trans ((bind_of_some h _).trans ?_)
  rw [String.ofList_toList]
  rfl

theorem anyString_basic (s : String) (hr : rest.head? ≠ some '"') :
    anyString (enclosed ['"'] false s.toList (writtenBody false 0 s.toList) ++ rest) =
      some (s, rest) := by
  have hhead : (writtenBody false 0 s.toList).head? ≠ some '"' := by
    rw [writtenBody_false]
    cases s.toList with
    | nil => simp
    | cons c text =>
      obtain ⟨d, others, hspelled, hd⟩ := head_spelled c
      simp [hspelled, hd]
  have hwritten : enclosed ['"'] false s.toList (writtenBody false 0 s.toList) ++ rest =
      '"' :: (writtenBody false 0 s.toList ++ '"' :: rest) := by simp [enclosed]
  rw [hwritten]
  exact anyString_of_line (longString_of_short hhead hr) (longString_of_head (by simp))
    (orElse_of_some (shortString_basic 0 s.toList rest))

theorem anyString_literal {s : String} (hv : ∀ c ∈ s.toList, isVisible c = true)
    (hq : '\'' ∉ s.toList) (hr : rest.head? ≠ some '\'') :
    anyString (enclosed ['\''] false s.toList s.toList ++ rest) = some (s, rest) := by
  have hhead : s.toList.head? ≠ some '\'' := fun h => hq (List.mem_of_head? h)
  have hwritten : enclosed ['\''] false s.toList s.toList ++ rest =
      '\'' :: (s.toList ++ '\'' :: rest) := by simp [enclosed]
  have hbasic : shortString '"' basicChar ('\'' :: (s.toList ++ '\'' :: rest)) = none :=
    bind_of_none (char_of_ne (by simp)) _
  rw [hwritten]
  exact anyString_of_line (longString_of_head (by simp)) (longString_of_short hhead hr)
    ((orElse_of_none hbasic).trans (shortString_literal hv hq))

theorem anyString_longBasic (s : String) (hr : rest.head? ≠ some '"') :
    anyString (enclosed (List.replicate 3 '"') true s.toList (writtenBody true 0 s.toList) ++
      rest) = some (s, rest) :=
  anyString_of_long (orElse_of_some
    ((longBody_writtenBody 0 s.toList).longString_enclosed leaves_basicPiece hr))

theorem anyString_longLiteral {s : String} (hcode : ∀ c ∈ s.toList, needsCode c = false)
    (hrun : longestRun '\'' s.toList ≤ 2) (hr : rest.head? ≠ some '\'') :
    anyString (enclosed (List.replicate 3 '\'') true s.toList s.toList ++ rest) =
      some (s, rest) := by
  rw [longestRun_eq] at hrun
  have hbody : LongBody '\'' literalPiece 0 s.toList s.toList := longBody_literal hcode hrun
  refine anyString_of_long ((orElse_of_none (longString_of_head ?_)).trans
    (hbody.longString_enclosed leaves_literalPiece hr))
  simp [enclosed, List.replicate_succ]

/-- A written string is read as the string it was written for, up to its closing quotes. -/
theorem anyString_writtenString (s : String) (hdouble : rest.head? ≠ some '"')
    (hsingle : rest.head? ≠ some '\'') :
    anyString ((writtenString s).toList ++ rest) = some (s, rest) := by
  have hcoded (h : s.toList.any needsCode = false) : ∀ c ∈ s.toList, needsCode c = false := by
    simpa using h
  rw [writtenString, String.toList_ofList]
  split
  case isTrue => exact anyString_basic s hdouble
  split
  case isTrue h =>
    simp only [Bool.and_eq_true, Bool.not_eq_true', List.contains_eq_mem,
      decide_eq_false_iff_not] at h
    obtain ⟨⟨hcode, hquote⟩, hnewline⟩ := h
    refine anyString_literal (fun c hc => ?_) hquote hsingle
    exact isVisible_of_not_needsCode (hcoded hcode c hc) fun he => hnewline (he ▸ hc)
  split
  case isTrue => exact anyString_longBasic s hdouble
  split
  case isTrue h =>
    rw [Bool.and_eq_true, Bool.not_eq_true', decide_eq_true_iff] at h
    exact anyString_longLiteral (hcoded h.1) h.2 hsingle
  · cases s.toList.contains '\n' with
    | false => exact anyString_basic s hdouble
    | true => exact anyString_longBasic s hdouble

theorem head_writtenString (s : String) :
    ∃ quote, (writtenString s).toList.head? = some quote ∧ (quote = '"' ∨ quote = '\'') := by
  have hopening (c : Char) (long : Bool) (text body : List Char) :
      (enclosed (List.replicate (if long then 3 else 1) c) long text body).head? = some c := by
    cases long <;> rfl
  rw [writtenString, String.toList_ofList]
  split
  case isTrue => exact ⟨'"', hopening _ false _ _, .inl rfl⟩
  split
  case isTrue => exact ⟨'\'', hopening _ false _ _, .inr rfl⟩
  split
  case isTrue => exact ⟨'"', hopening _ true _ _, .inl rfl⟩
  split
  case isTrue => exact ⟨'\'', hopening _ true _ _, .inr rfl⟩
  case isFalse => exact ⟨'"', hopening _ _ _ _, .inl rfl⟩

/-- What does not begin with a quote is no string. -/
theorem lineString_of_head {text : List Char} (hdouble : text.head? ≠ some '"')
    (hsingle : text.head? ≠ some '\'') : lineString text = none := by
  have hbasic : shortString '"' basicChar text = none := bind_of_none (char_of_ne hdouble) _
  have hliteral : shortString '\'' literalChar text = none := bind_of_none (char_of_ne hsingle) _
  exact bind_of_none ((orElse_of_none hbasic).trans hliteral) _

theorem anyString_of_head {text : List Char} (hdouble : text.head? ≠ some '"')
    (hsingle : text.head? ≠ some '\'') : anyString text = none := by
  have hlong : (longString '"' basicPiece <|> longString '\'' literalPiece) text = none :=
    (orElse_of_none (longString_of_head hdouble)).trans (longString_of_head hsingle)
  exact (orElse_of_none (bind_of_none hlong _)).trans (lineString_of_head hdouble hsingle)

end RdmRegistry.Toml
