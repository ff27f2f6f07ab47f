/-
Settings from the environment, for whatever the two variables hold.

Validation is off exactly when its variable holds one of four words, in any letter case and between
any white space (`TurnsOff`, `isRefusal_iff`); nothing else that a user may write turns it off. The
directory is taken as it stands. `settings_of_environment` says this of all four settings, and that the
check has nothing to say against them.
-/
import Mathlib.Data.List.Forall2
import RdmRegistry.Proofs.UsableSettings
import RdmRegistry.Settings.Environment

namespace RdmRegistry

/-! ## Letter case -/

namespace Text

/-- The characters are the same, or the two cases of a letter of ASCII. -/
def SameButCase (c d : Char) : Prop :=
  c = d ∨ ('A'.toNat ≤ c.toNat ∧ c.toNat ≤ 'Z'.toNat ∧ d.toNat = c.toNat + 32) ∨
    ('A'.toNat ≤ d.toNat ∧ d.toNat ≤ 'Z'.toNat ∧ c.toNat = d.toNat + 32)

theorem toNat_toLower (c : Char) :
    c.toLower.toNat =
      if 'A'.toNat ≤ c.toNat ∧ c.toNat ≤ 'Z'.toNat then c.toNat + 32 else c.toNat := by
  have hupper : (c.val ≥ 'A'.val ∧ c.val ≤ 'Z'.val) ↔
      'A'.toNat ≤ c.toNat ∧ c.toNat ≤ 'Z'.toNat := by
    rw [ge_iff_le, UInt32.le_iff_toNat_le, UInt32.le_iff_toNat_le]
    rfl
  delta Char.toLower
  split
  · next h =>
    have hle : c.toNat ≤ 90 := (hupper.mp h).2
    rw [if_pos (hupper.mp h)]
    show (c.val + 32).toNat = c.toNat + 32
    rw [UInt32.toNat_add]
    exact Nat.mod_eq_of_lt (by show c.toNat + 32 < _; omega)
  · next h => rw [if_neg (mt hupper.mpr h)]

theorem toLower_eq_toLower_iff {c d : Char} : c.toLower = d.toLower ↔ SameButCase c d := by
  rw [← Char.toNat_inj, toNat_toLower, toNat_toLower, SameButCase, ← Char.toNat_inj]
  have hA : 'A'.toNat = 65 := rfl
  have hZ : 'Z'.toNat = 90 := rfl
  split <;> split <;> omega

theorem map_toLower_eq_iff {word other : List Char} :
    word.map Char.toLower = other.map Char.toLower ↔ List.Forall₂ SameButCase word other := by
  rw [← List.forall₂_eq_eq_eq, List.forall₂_map_left_iff, List.forall₂_map_right_iff]
  simp only [toLower_eq_toLower_iff]

/-- Letter case does not turn white space into anything else. -/
theorem SameButCase.isBlank_eq {c d : Char} (h : SameButCase c d) : isBlank c = isBlank d := by
  rcases h with rfl | h | h
  · rfl
  all_goals
    rw [Bool.eq_iff_iff, isBlank_iff, isBlank_iff]
    simp only [whiteSpace, List.mem_cons, List.not_mem_nil, or_false]
    have hA : 'A'.toNat = 65 := rfl
    have hZ : 'Z'.toNat = 90 := rfl
    omega

theorem map_isBlank_eq {word other : List Char} (h : List.Forall₂ SameButCase word other) :
    word.map isBlank = other.map isBlank := by
  rw [← List.forall₂_eq_eq_eq, List.forall₂_map_left_iff, List.forall₂_map_right_iff]
  exact h.imp fun _ _ hcd => hcd.isBlank_eq

end Text

/-! ## Validation -/

/-- The value is one of the words that turn validation off, in any letter case and between any white
space. -/
def TurnsOff (value : String) : Prop :=
  ∃ before word after, value.toList = before ++ word ++ after ∧
    (∀ c ∈ before ++ after, c.toNat ∈ Text.whiteSpace) ∧
    ∃ refusal ∈ ["0", "false", "no", "off"], List.Forall₂ Text.SameButCase word refusal.toList

namespace Settings

theorem isRefusal_iff {value : String} : isRefusal value = true ↔ TurnsOff value := by
  have hlower : ∀ refusal ∈ refusals, refusal.toList.map Char.toLower = refusal.toList := by decide
  have hvisible : ∀ refusal ∈ refusals, refusal.toList.any Text.isBlank = false := by decide
  rw [isRefusal, List.contains_iff_mem]
  constructor
  · intro h
    obtain ⟨before, after, hvalue, hblank⟩ := Text.exists_eq_append_trim value.toList
    refine ⟨before, Text.trim value.toList, after, hvalue,
      fun c hc => Text.isBlank_iff.mp (hblank c hc), _, h, ?_⟩
    rw [← Text.map_toLower_eq_iff, hlower _ h, String.toList_ofList]
  · intro hgiven
    obtain ⟨before, word, after, hvalue, hblank, refusal, hrefusal, hsame⟩ := hgiven
    -- The word differs from a refusal in letter case only, so it has no white space in it either.
    have hword : ∀ c ∈ word, Text.isBlank c = false := fun c hc => by
      have hmem : Text.isBlank c ∈ refusal.toList.map Text.isBlank :=
        Text.map_isBlank_eq hsame ▸ List.mem_map_of_mem hc
      obtain ⟨d, hd, hcd⟩ := List.mem_map.mp hmem
      rw [← hcd]
      exact Bool.eq_false_iff.mpr (List.any_eq_false.mp (hvisible refusal hrefusal) d hd)
    rw [hvalue, Text.trim_append_append (fun c hc => Text.isBlank_iff.mpr (hblank c hc)) hword,
      Text.map_toLower_eq_iff.mpr hsame, hlower refusal hrefusal, String.ofList_toList]
    exact hrefusal

end Settings

/-- What the values of the two variables make of settings. -/
structure Settings.OfVariables (directory validation : Option String) (settings : Settings) :
    Prop where
  validate_eq_false_iff :
    settings.validate = false ↔ ∃ value, validation = some value ∧ TurnsOff value
  dataDir : ∀ text, directory = some text → text ≠ "" → settings.dataDir = some (.ofString text)
  dataDir_eq_none : directory = none ∨ directory = some "" → settings.dataDir = none
  fileExtension : settings.fileExtension = ({} : Settings).fileExtension
  overridesFile : settings.overridesFile = ({} : Settings).overridesFile
  check : settings.check = .ok ()

/-- **Every environment makes settings that can be used**, each setting from its own variable alone. -/
theorem settings_of_environment (lookup : String → Option String) :
    (Settings.ofEnvironment lookup).OfVariables (lookup "RDM_PID_DATA_DIR")
      (lookup "RDM_PID_VALIDATE") where
  validate_eq_false_iff := by
    simp [Settings.ofEnvironment, Settings.validateVariable, Option.any_eq_true,
      Settings.isRefusal_iff]
  dataDir := fun text h hne => by
    simp [Settings.ofEnvironment, Settings.dataDirVariable, h, hne]
  dataDir_eq_none := by
    rintro (h | h) <;> simp [Settings.ofEnvironment, Settings.dataDirVariable, h]
  fileExtension := rfl
  overridesFile := rfl
  check := show ({} : Settings).check = .ok () from rfl

end RdmRegistry
