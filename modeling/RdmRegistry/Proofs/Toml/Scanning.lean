/-
How scanners run on a text whose front is known. Sequences, choices and repetitions have one law for
each way in which they can go; `many_flatMap` is the repetition of a scanner that takes one piece of a
text after another, whatever pieces follow.
-/
import RdmRegistry.Toml.Scan

namespace RdmRegistry.Toml.Scan

variable {α β γ : Type} {text rest : List Char}

/-! ## Sequences and choices -/

theorem bind_of_some {scan : Scan α} {a : α} (h : scan text = some (a, rest)) (next : α → Scan β) :
    (scan >>= next) text = next a rest := by
  show (scan text >>= fun taken => next taken.1 taken.2) = _
  rw [h]
  rfl

theorem bind_of_none {scan : Scan α} (h : scan text = none) (next : α → Scan β) :
    (scan >>= next) text = none := by
  show (scan text >>= fun taken => next taken.1 taken.2) = _
  rw [h]
  rfl

theorem orElse_of_some {first second : Scan α} {taken : α × List Char}
    (h : first text = some taken) : (first <|> second) text = some taken := by
  show (first text <|> second text) = _
  rw [h]
  rfl

theorem orElse_of_none {first second : Scan α} (h : first text = none) :
    (first <|> second) text = second text := by
  show (first text <|> second text) = _
  rw [h]
  rfl

theorem optional_of_some {scan : Scan α} {a : α} (h : scan text = some (a, rest)) :
    (optional scan) text = some (some a, rest) :=
  orElse_of_some (by rw [map_eq_pure_bind, bind_of_some h]; rfl)

theorem optional_of_none {scan : Scan α} (h : scan text = none) :
    (optional scan) text = some (none, text) :=
  orElse_of_none (by rw [map_eq_pure_bind, bind_of_none h])

theorem require_of_true {condition : Bool} (h : condition = true) :
    require condition text = some ((), text) := by
  rw [require, if_pos h]
  rfl

theorem require_of_false {condition : Bool} (h : condition = false) :
    require condition text = none := by
  rw [require, h]
  rfl

/-! ## Characters -/

theorem one_of_pos {kind : Char → Bool} {c : Char} (h : kind c = true) :
    one kind (c :: rest) = some (c, rest) := by
  rw [one, if_pos h]

theorem one_of_neg {kind : Char → Bool} (h : ∀ c, text.head? = some c → kind c = false) :
    one kind text = none := by
  cases text with
  | nil => rfl
  | cons c rest => rw [one, h c rfl]; rfl

theorem char_cons (c : Char) (rest : List Char) : char c (c :: rest) = some ((), rest) :=
  bind_of_some (one_of_pos (by simp)) _

theorem char_of_ne {c : Char} (h : text.head? ≠ some c) : char c text = none := by
  refine bind_of_none (one_of_neg fun d hd => ?_) _
  rw [beq_eq_false_iff_ne]
  exact fun he => h (he ▸ hd)

theorem word_append (chars rest : List Char) : word chars (chars ++ rest) = some ((), rest) := by
  induction chars with
  | nil => rfl
  | cons c chars ih =>
    rw [word, List.cons_append, bind_of_some (char_cons c _), ih]

theorem span_append {kind : Char → Bool} {taken : List Char} (ht : ∀ c ∈ taken, kind c = true)
    (hr : ∀ c, rest.head? = some c → kind c = false) :
    span kind (taken ++ rest) = some (taken, rest) := by
  have hstop : rest.takeWhile kind = [] ∧ rest.dropWhile kind = rest := by
    cases rest with
    | nil => exact ⟨rfl, rfl⟩
    | cons c rest => simp [hr c rfl]
  rw [span, List.takeWhile_append_of_pos ht, List.dropWhile_append_of_pos ht, hstop.1, hstop.2,
    List.append_nil]

theorem blanks_of_ne (hspace : text.head? ≠ some ' ') (htab : text.head? ≠ some '\t') :
    blanks text = some ((), text) := by
  have hspan : span (fun c => c == ' ' || c == '\t') ([] ++ text) = some ([], text) := by
    refine span_append (by simp) fun c hc => ?_
    have hne : c ≠ ' ' ∧ c ≠ '\t' := ⟨fun he => hspace (he ▸ hc), fun he => htab (he ▸ hc)⟩
    simp [hne]
  exact bind_of_some hspan _

theorem blanks_cons (text : List Char) : blanks (' ' :: text) = blanks text := rfl

theorem newline_cons (rest : List Char) : newline ('\n' :: rest) = some ((), rest) :=
  orElse_of_some (word_append ['\n'] rest)

theorem newline_of_ne (h : text.head? ≠ some '\n') (hr : text.head? ≠ some '\r') :
    newline text = none := by
  have hword {c : Char} {others : List Char} (hc : text.head? ≠ some c) :
      word (c :: others) text = none := bind_of_none (char_of_ne hc) _
  rw [newline, orElse_of_none (hword h), hword hr]

/-! ## Repetitions -/

theorem many_of_none {scan : Scan α} (h : scan text = none) : many scan text = some ([], text) := by
  rw [many, h]

theorem many_of_some {scan : Scan α} {a : α} {items : List α} {last : List Char}
    (h : scan text = some (a, rest)) (hlt : rest.length < text.length)
    (hm : many scan rest = some (items, last)) : many scan text = some (a :: items, last) := by
  rw [many, h]
  simp [hlt, hm]

/-- A scanner that takes piece after piece, whatever comes behind them. -/
theorem many_flatMap {scan : Scan α} {written : γ → List Char} {value : γ → α}
    (hstop : scan rest = none) {pieces : List γ}
    (hstep : ∀ piece ∈ pieces, written piece ≠ [] ∧
      ∀ tail, scan (written piece ++ tail) = some (value piece, tail)) :
    many scan (pieces.flatMap written ++ rest) = some (pieces.map value, rest) := by
  induction pieces with
  | nil => exact many_of_none hstop
  | cons piece pieces ih =>
    obtain ⟨⟨hne, htake⟩, hpieces⟩ := List.forall_mem_cons.mp hstep
    have hpos : 0 < (written piece).length := List.length_pos_iff.mpr hne
    rw [List.flatMap_cons, List.append_assoc]
    refine many_of_some (htake _) ?_ (ih hpieces)
    simp only [List.length_append]
    omega

/-- Characters of a kind, one by one. -/
theorem many_one (kind : Char → Bool) (text : List Char) :
    many (one kind) text = some (text.takeWhile kind, text.dropWhile kind) := by
  induction text with
  | nil => exact many_of_none rfl
  | cons c rest ih =>
    by_cases h : kind c = true
    · rw [List.takeWhile_cons_of_pos h, List.dropWhile_cons_of_pos h]
      exact many_of_some (one_of_pos h) (by simp) ih
    · rw [List.takeWhile_cons_of_neg h, List.dropWhile_cons_of_neg h]
      exact many_of_none (one_of_neg (by simpa using h))

end RdmRegistry.Toml.Scan
