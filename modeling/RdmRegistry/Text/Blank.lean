/-
White space, and the text that is left when it is taken off both ends.

`isBlank_iff`: the blank characters, one by one. `trim_eq_nil_iff`: nothing is left exactly when every
character is blank. `exists_eq_append_trim` and `trim_append_append`: what is left stands between white
space, and is the word if there is one.
-/
import RdmRegistry.Text.Ranges

namespace RdmRegistry.Text

/-- The characters with the property White_Space. -/
def blankRanges : Ranges :=
  [(0x9, 0xD), (0x20, 0x20), (0x85, 0x85), (0xA0, 0xA0), (0x1680, 0x1680), (0x2000, 0x200A),
    (0x2028, 0x2029), (0x202F, 0x202F), (0x205F, 0x205F), (0x3000, 0x3000)]

def isBlank (c : Char) : Bool :=
  blankRanges.contains c

/-- The code points with the property White_Space, one by one. -/
def whiteSpace : List Nat :=
  [0x9, 0xA, 0xB, 0xC, 0xD, 0x20, 0x85, 0xA0, 0x1680, 0x2000, 0x2001, 0x2002, 0x2003, 0x2004, 0x2005,
    0x2006, 0x2007, 0x2008, 0x2009, 0x200A, 0x2028, 0x2029, 0x202F, 0x205F, 0x3000]

theorem isBlank_iff {c : Char} : isBlank c = true ↔ c.toNat ∈ whiteSpace := by
  simp only [isBlank, Ranges.contains_iff, blankRanges, whiteSpace, List.mem_cons, List.not_mem_nil,
    exists_eq_or_imp, or_false, exists_eq_left]
  omega

/-- The text without the white space at its two ends. -/
def trim (cs : List Char) : List Char :=
  ((cs.dropWhile isBlank).reverse.dropWhile isBlank).reverse

theorem dropWhile_isBlank_eq_nil_iff {cs : List Char} :
    cs.dropWhile isBlank = [] ↔ ∀ c ∈ cs, isBlank c = true := by
  induction cs with
  | nil => simp
  | cons c cs ih => by_cases h : isBlank c = true <;> simp [h, ih]

theorem trim_eq_nil_iff {cs : List Char} : trim cs = [] ↔ ∀ c ∈ cs, isBlank c = true := by
  constructor
  · intro h
    have hd : ∀ c ∈ cs.dropWhile isBlank, isBlank c = true := by
      have : (cs.dropWhile isBlank).reverse.dropWhile isBlank = [] := by simpa [trim] using h
      intro c hc
      exact dropWhile_isBlank_eq_nil_iff.mp this c (by simpa using hc)
    have hn : cs.dropWhile isBlank = [] := by
      cases hcs : cs.dropWhile isBlank with
      | nil => rfl
      | cons a l =>
        have ha : isBlank a = true := hd a (by simp [hcs])
        have := List.head?_dropWhile_not isBlank cs
        simp [hcs, ha] at this
    exact dropWhile_isBlank_eq_nil_iff.mp hn
  · intro h
    simp [trim, dropWhile_isBlank_eq_nil_iff.mpr h]

/-- What is taken off the two ends is white space. -/
theorem exists_eq_append_trim (cs : List Char) :
    ∃ before after, cs = before ++ trim cs ++ after ∧ ∀ c ∈ before ++ after, isBlank c = true := by
  let rest := cs.dropWhile isBlank
  refine ⟨cs.takeWhile isBlank, (rest.reverse.takeWhile isBlank).reverse, ?_, ?_⟩
  · calc cs = cs.takeWhile isBlank ++ rest.reverse.reverse := by
          rw [List.reverse_reverse, List.takeWhile_append_dropWhile]
      _ = cs.takeWhile isBlank ++
            (rest.reverse.takeWhile isBlank ++ rest.reverse.dropWhile isBlank).reverse := by
          rw [List.takeWhile_append_dropWhile]
      _ = cs.takeWhile isBlank ++ trim cs ++ (rest.reverse.takeWhile isBlank).reverse := by
          rw [List.reverse_append, List.append_assoc]
          rfl
  · intro c hc
    rw [List.mem_append, List.mem_reverse] at hc
    exact hc.elim (fun h => List.all_eq_true.mp List.all_takeWhile c h)
      fun h => List.all_eq_true.mp List.all_takeWhile c h

theorem dropWhile_isBlank_append {blanks word rest : List Char}
    (hblanks : ∀ c ∈ blanks, isBlank c = true) (hword : ∀ c ∈ word, isBlank c = false)
    (hne : word ≠ []) : (blanks ++ (word ++ rest)).dropWhile isBlank = word ++ rest := by
  obtain ⟨c, others, rfl⟩ := List.exists_cons_of_ne_nil hne
  rw [List.dropWhile_append_of_pos hblanks]
  simp [hword c]

/-- White space around a word that has none in it is taken off, and nothing else. -/
theorem trim_append_append {before word after : List Char}
    (hblank : ∀ c ∈ before ++ after, isBlank c = true) (hword : ∀ c ∈ word, isBlank c = false) :
    trim (before ++ word ++ after) = word := by
  by_cases hne : word = []
  · subst hne
    rwa [List.append_nil, trim_eq_nil_iff]
  have hfront : (before ++ word ++ after).dropWhile isBlank = word ++ after := by
    rw [List.append_assoc]
    exact dropWhile_isBlank_append (fun c hc => hblank c (List.mem_append_left _ hc)) hword hne
  have hback : (after.reverse ++ (word.reverse ++ [])).dropWhile isBlank = word.reverse ++ [] :=
    dropWhile_isBlank_append
      (fun c hc => hblank c (List.mem_append_right _ (List.mem_reverse.mp hc)))
      (fun c hc => hword c (List.mem_reverse.mp hc)) (by simpa using hne)
  rw [trim, hfront, List.reverse_append, ← List.append_nil word.reverse, hback, List.append_nil,
    List.reverse_reverse]

end RdmRegistry.Text
