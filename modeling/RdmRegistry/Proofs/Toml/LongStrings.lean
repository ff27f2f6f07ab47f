/-
How strings over many lines are read. Their characters may stand for themselves or as escapes, but
quotes have no spelling of their own: up to two in a row stand for themselves, and the closing three
stand directly behind the last of them. `LongBody` says how a text may look between its delimiters, for
quotes of either kind, and `LongBody.longString_enclosed` reads it.
-/
import RdmRegistry.Proofs.Toml.Scanning
import RdmRegistry.Toml.Quotes
import RdmRegistry.Toml.Written

namespace RdmRegistry.Toml

open Scan

variable {quote : Char} {piece : Scan (List Char)} {rest tail text body : List Char} {quotes : Nat}

/-! ## Texts between delimiters -/

/-- What a string over many lines is made of, one after another. -/
def longItem (quote : Char) (piece : Scan (List Char)) : Scan (List Char) :=
  piece <|> innerNewline <|> innerQuotes quote

/-- A word that stands for a character as an item of its own. It begins with a line feed for a line
feed only, so that none is taken for the end of the opening line. -/
structure Spells (quote : Char) (piece : Scan (List Char)) (c : Char) (word : List Char) : Prop where
  taken (tail : List Char) : longItem quote piece (word ++ tail) = some ([c], tail)
  head : ∃ d others, word = d :: others ∧ d ≠ quote ∧ d ≠ '\r' ∧ (d = '\n' → c = '\n')

/-- A text over many lines and how it may be written behind so many quotes: quotes stand for
themselves, never three in a row, and other characters for themselves or as escapes. -/
inductive LongBody (quote : Char) (piece : Scan (List Char)) :
    Nat → List Char → List Char → Prop where
  | nil (quotes : Nat) : LongBody quote piece quotes [] []
  | quote {quotes : Nat} {text body : List Char} (hlt : quotes < 2)
      (hbody : LongBody quote piece (quotes + 1) text body) :
      LongBody quote piece quotes (quote :: text) (quote :: body)
  | char {quotes : Nat} {c : Char} {word text body : List Char}
      (hword : Spells quote piece c word) (hbody : LongBody quote piece 0 text body) :
      LongBody quote piece quotes (c :: text) (word ++ body)

/-- A scanner for the pieces of a string leaves quotes and ends of lines alone. -/
structure Leaves (quote : Char) (piece : Scan (List Char)) : Prop where
  ne_newline : quote ≠ '\n' ∧ quote ≠ '\r'
  quote (tail : List Char) : piece (quote :: tail) = none
  newline (tail : List Char) : piece ('\n' :: tail) = none

theorem spells_newline (hl : Leaves quote piece) : Spells quote piece '\n' ['\n'] where
  taken tail := by
    have hline : innerNewline ('\n' :: tail) = some (['\n'], tail) := by
      rw [innerNewline, bind_of_some (newline_cons tail)]
      rfl
    rw [longItem, List.singleton_append, orElse_of_none (hl.newline tail)]
    exact orElse_of_some hline
  head := ⟨'\n', [], rfl, hl.ne_newline.1.symm, by decide, fun _ => rfl⟩

/-! ## Quotes -/

theorem longItem_quotes (hl : Leaves quote piece) (hpos : 0 < quotes) :
    longItem quote piece (List.replicate quotes quote ++ tail) =
      innerQuotes quote (List.replicate quotes quote ++ tail) := by
  obtain ⟨n, rfl⟩ : ∃ n, quotes = n + 1 := ⟨quotes - 1, by omega⟩
  rw [List.replicate_succ, List.cons_append]
  have hnewline : innerNewline (quote :: (List.replicate n quote ++ tail)) = none :=
    bind_of_none (newline_of_ne (by simpa using hl.ne_newline.1) (by simpa using hl.ne_newline.2)) _
  rw [longItem, orElse_of_none (hl.quote _), orElse_of_none hnewline]

theorem span_replicate (hr : rest.head? ≠ some quote) :
    span (· == quote) (List.replicate quotes quote ++ rest) =
      some (List.replicate quotes quote, rest) :=
  span_append (by simp) fun c hc => by
    rw [beq_eq_false_iff_ne]
    exact fun he => hr (he ▸ hc)

theorem longItem_innerQuotes (hl : Leaves quote piece) (hpos : 0 < quotes) (hle : quotes ≤ 2)
    (hr : rest.head? ≠ some quote) :
    longItem quote piece (List.replicate quotes quote ++ rest) =
      some (List.replicate quotes quote, rest) := by
  have hcount : ((List.replicate quotes quote).length == 1 ||
      (List.replicate quotes quote).length == 2) = true := by
    rw [List.length_replicate]
    obtain rfl | rfl : quotes = 1 ∨ quotes = 2 := by omega
    · rfl
    · rfl
  rw [longItem_quotes hl hpos, innerQuotes, bind_of_some (span_replicate hr),
    bind_of_some (require_of_true hcount)]
  rfl

theorem longItem_closing (hl : Leaves quote piece) (hr : rest.head? ≠ some quote) :
    longItem quote piece (List.replicate (quotes + 3) quote ++ rest) = none := by
  have hcount : ((List.replicate (quotes + 3) quote).length == 1 ||
      (List.replicate (quotes + 3) quote).length == 2) = false := by
    rw [List.length_replicate]
    simp
  rw [longItem_quotes hl (by omega), innerQuotes, bind_of_some (span_replicate hr),
    bind_of_none (require_of_false hcount)]

theorem closingQuotes_replicate (hle : quotes ≤ 2) (hr : rest.head? ≠ some quote) :
    closingQuotes quote (List.replicate (quotes + 3) quote ++ rest) =
      some (List.replicate quotes quote, rest) := by
  have hcount : decide (3 ≤ (List.replicate (quotes + 3) quote).length) = true := by simp
  have hdrop : (List.replicate (quotes + 3) quote).drop 5 = [] := by simp; omega
  have htake : ((List.replicate (quotes + 3) quote).take 5).drop 3 =
      List.replicate quotes quote := by
    rw [List.take_of_length_le (by simp; omega), List.drop_replicate, Nat.add_sub_cancel]
  rw [closingQuotes, bind_of_some (span_replicate hr), bind_of_some (require_of_true hcount), hdrop,
    htake]
  rfl

/-- The items of a text over many lines, up to the quotes at its end: those stand before the closing
ones. -/
theorem LongBody.many_longItem (hl : Leaves quote piece) (hr : rest.head? ≠ some quote)
    (hle : quotes ≤ 2) (hbody : LongBody quote piece quotes text body) :
    ∃ items last, last ≤ 2 ∧
      many (longItem quote piece)
          (List.replicate quotes quote ++ (body ++ (List.replicate 3 quote ++ rest))) =
        some (items, List.replicate (last + 3) quote ++ rest) ∧
      items.flatten ++ List.replicate last quote = List.replicate quotes quote ++ text := by
  induction hbody with
  | nil quotes =>
    refine ⟨[], quotes, hle, ?_, by simp⟩
    rw [List.nil_append, ← List.append_assoc, List.replicate_append_replicate]
    exact many_of_none (longItem_closing hl hr)
  | @quote quotes text body hlt hbody ih =>
    obtain ⟨items, last, hlast, hmany, hitems⟩ := ih hlt
    have hmove (chars : List Char) : List.replicate quotes quote ++ quote :: chars =
        List.replicate (quotes + 1) quote ++ chars := by
      rw [List.replicate_succ', List.append_assoc]
      rfl
    rw [List.cons_append, hmove, hmove]
    exact ⟨items, last, hlast, hmany, hitems⟩
  | @char quotes c word text body hword hbody ih =>
    obtain ⟨items, last, hlast, hmany, hitems⟩ := ih (by omega)
    obtain ⟨d, others, hhead, hd, -⟩ := hword.head
    rw [List.replicate_zero, List.nil_append] at hmany hitems
    have hshorter (after : List Char) : after.length < (word ++ after).length := by
      rw [hhead, List.length_append, List.length_cons]
      omega
    have htaken : many (longItem quote piece)
        (word ++ (body ++ (List.replicate 3 quote ++ rest))) =
          some ([c] :: items, List.replicate (last + 3) quote ++ rest) :=
      many_of_some (hword.taken _) (hshorter _) hmany
    rw [List.append_assoc]
    obtain rfl | hpos := Nat.eq_zero_or_pos quotes
    · exact ⟨[c] :: items, last, hlast, htaken, by simp [hitems]⟩
    · -- The quotes before the word are an item, as the word does not begin with one.
      refine ⟨List.replicate quotes quote :: [c] :: items, last, hlast, ?_, by simp [hitems]⟩
      refine many_of_some (longItem_innerQuotes hl hpos hle ?_) ?_ htaken
      · simpa [hhead] using hd
      · simp; omega

/-- A text without line feeds is not written with an end of line in front. -/
theorem LongBody.newline_append (hl : Leaves quote piece) (hn : '\n' ∉ text)
    (hbody : LongBody quote piece quotes text body) :
    newline (body ++ (List.replicate 3 quote ++ rest)) = none := by
  obtain ⟨hfeed, hreturn⟩ := hl.ne_newline
  cases hbody with
  | nil => exact newline_of_ne (by simpa using hfeed) (by simpa using hreturn)
  | quote => exact newline_of_ne (by simpa using hfeed) (by simpa using hreturn)
  | char hword =>
    obtain ⟨d, others, hhead, -, hd, hline⟩ := hword.head
    refine newline_of_ne (fun h => ?_) (by simpa [hhead] using hd)
    have hc := hline (by simpa [hhead] using h)
    exact hn (by simp [hc])

theorem LongBody.longString_enclosed (hl : Leaves quote piece) (hr : rest.head? ≠ some quote)
    (hbody : LongBody quote piece 0 text body) :
    longString quote piece (enclosed (List.replicate 3 quote) true text body ++ rest) =
      some (text, rest) := by
  have hopening : ∃ ended,
      (optional newline) ((if true && text.contains '\n' then ['\n'] else []) ++
        (body ++ (List.replicate 3 quote ++ rest))) =
          some (ended, body ++ (List.replicate 3 quote ++ rest)) := by
    by_cases hn : '\n' ∈ text
    · rw [if_pos (by simp [hn])]
      exact ⟨_, optional_of_some (newline_cons _)⟩
    · rw [if_neg (by simp [hn])]
      exact ⟨_, optional_of_none (hbody.newline_append hl hn)⟩
  obtain ⟨ended, hopening⟩ := hopening
  obtain ⟨items, last, hlast, hmany, hitems⟩ := hbody.many_longItem hl hr (by omega)
  rw [longString, enclosed]
  simp only [List.append_assoc]
  refine (bind_of_some (word_append (List.replicate 3 quote) _) _).trans ?_
  refine (bind_of_some hopening _).trans ?_
  refine (bind_of_some hmany _).trans ?_
  refine (bind_of_some (closingQuotes_replicate hlast hr) _).trans ?_
  rw [hitems]
  rfl

/-! ## Texts that are not opened by three quotes -/

theorem longString_of_none (h : word [quote, quote, quote] text = none) :
    longString quote piece text = none :=
  bind_of_none h _

theorem longString_of_head (h : text.head? ≠ some quote) : longString quote piece text = none :=
  longString_of_none (bind_of_none (char_of_ne h) _)

/-- What stands on one line does not open a string over many lines. -/
theorem longString_of_short (hbody : body.head? ≠ some quote) (hr : rest.head? ≠ some quote) :
    longString quote piece (quote :: (body ++ quote :: rest)) = none := by
  refine longString_of_none ((bind_of_some (char_cons quote _) _).trans ?_)
  cases body with
  | nil => exact (bind_of_some (char_cons quote _) _).trans (bind_of_none (char_of_ne hr) _)
  | cons d body => exact bind_of_none (char_of_ne (by simpa using hbody)) _

end RdmRegistry.Toml
