/-
Written fields are read again. A field that is written has a line of its own, with a bare key and a
value, and `parse?_writtenFields` says that the text of such lines is the document with these entries,
in their order. So the format of settings files loses nothing (`lossless`).
-/
import RdmRegistry.Proofs.Formats
import RdmRegistry.Proofs.Toml.WrittenStrings
import RdmRegistry.Settings.File

namespace RdmRegistry

open Toml Toml.Scan

variable {key : String} {field : Field} {rest : List Char}

/-- The value that a field is written as. -/
def Field.value? : Field → Option Toml.Value
  | .flag b => some (.boolean b)
  | .text s => some (.string s)
  | _ => none

theorem Field.written?_eq_none_iff : field.written? = none ↔ field.value? = none := by
  cases field <;> simp [written?, value?]

namespace Toml

/-! ## Values -/

theorem scalar_string (s : String) :
    scalar ((writtenString s).toList ++ '\n' :: rest) = some (.string s, '\n' :: rest) := by
  have hstring : anyString ((writtenString s).toList ++ '\n' :: rest) = some (s, '\n' :: rest) :=
    anyString_writtenString s (by simp) (by simp)
  exact orElse_of_some ((bind_of_some hstring _).trans rfl)

theorem scalar_boolean (b : Bool) :
    scalar ((if b then "true" else "false").toList ++ '\n' :: rest) =
      some (.boolean b, '\n' :: rest) := by
  have hstring : anyString ((if b then "true" else "false").toList ++ '\n' :: rest) = none := by
    cases b <;> exact anyString_of_head (by simp) (by simp)
  refine (orElse_of_none (bind_of_none hstring _)).trans ?_
  cases b with
  | true => exact orElse_of_some (orElse_of_some (bind_of_some (word_append _ _) _))
  | false =>
    have hne : word ['t', 'r', 'u', 'e'] ("false".toList ++ '\n' :: rest) = none :=
      bind_of_none (char_of_ne (by simp)) _
    exact orElse_of_some ((orElse_of_none (bind_of_none hne _)).trans
      (bind_of_some (word_append _ _) _))

/-- A written value begins with a quote or a letter. -/
theorem head_written {text : String} (h : field.written? = some text) :
    ∃ c, text.toList.head? = some c ∧ c ∉ [' ', '\t', '[', '\x7b'] := by
  cases field with
  | flag b =>
    obtain rfl : (if b then "true" else "false") = text := Option.some.inj h
    cases b with
    | true => exact ⟨'t', rfl, by decide⟩
    | false => exact ⟨'f', rfl, by decide⟩
  | text s =>
    obtain rfl : writtenString s = text := Option.some.inj h
    obtain ⟨quote, hhead, rfl | rfl⟩ := head_writtenString s
    · exact ⟨'"', hhead, by decide⟩
    · exact ⟨'\'', hhead, by decide⟩
  | null | other => nomatch h

theorem head_written_ne {text : String} (h : field.written? = some text) {d : Char}
    (hd : d ∈ [' ', '\t', '[', '\x7b']) : (text.toList ++ rest).head? ≠ some d := by
  obtain ⟨c, hhead, hc⟩ := head_written h
  rw [List.head?_append, hhead, Option.some_or]
  exact fun he => hc (Option.some.inj he ▸ hd)

theorem scalar_written {text : String} (h : field.written? = some text) :
    ∃ v, field.value? = some v ∧
      scalar (text.toList ++ '\n' :: rest) = some (v, '\n' :: rest) := by
  cases field with
  | flag b =>
    obtain rfl : (if b then "true" else "false") = text := Option.some.inj h
    exact ⟨.boolean b, rfl, scalar_boolean b⟩
  | text s =>
    obtain rfl : writtenString s = text := Option.some.inj h
    exact ⟨.string s, rfl, scalar_string s⟩
  | null | other => nomatch h

/-- A written value is neither an array nor a table, and is read up to the end of its line. -/
theorem value_written {text : String} (h : field.written? = some text) (depth : Nat)
    (rest : List Char) :
    ∃ v, field.value? = some v ∧
      value (depth + 1) (text.toList ++ '\n' :: rest) = some (v, '\n' :: rest) := by
  obtain ⟨v, hv, hscalar⟩ := scalar_written h
  have harray : array (value depth) (text.toList ++ '\n' :: rest) = none :=
    bind_of_none (char_of_ne (head_written_ne h (by decide))) _
  have htable : inlineTable (value depth) (text.toList ++ '\n' :: rest) = none :=
    bind_of_none (char_of_ne (head_written_ne h (by decide))) _
  refine ⟨v, hv, ?_⟩
  rw [value, orElse_of_none harray, orElse_of_none htable, hscalar]

/-! ## Lines -/

/-- A key that needs no quotes. -/
def IsBareKey (key : String) : Prop :=
  key.toList ≠ [] ∧ key.toList.all keyPart.isBare = true

instance (key : String) : Decidable (IsBareKey key) :=
  inferInstanceAs (Decidable (_ ∧ _))

theorem IsBareKey.head_ne (h : IsBareKey key) {d : Char} (hd : keyPart.isBare d = false) :
    (key.toList ++ rest).head? ≠ some d := by
  obtain ⟨hne, hall⟩ := h
  have hbare := List.all_eq_true.mp hall
  obtain ⟨c, others, hkey⟩ := List.exists_cons_of_ne_nil hne
  have hc : keyPart.isBare c = true := hbare c (by simp [hkey])
  intro hhead
  obtain rfl : c = d := by simpa [hkey] using hhead
  rw [hc] at hd
  nomatch hd

theorem IsBareKey.keyPart_append (h : IsBareKey key) :
    keyPart (key.toList ++ ' ' :: '=' :: rest) = some (key, '=' :: rest) := by
  have hblanks : blanks (key.toList ++ ' ' :: '=' :: rest) =
      some ((), key.toList ++ ' ' :: '=' :: rest) :=
    blanks_of_ne (h.head_ne rfl) (h.head_ne rfl)
  have hquoted : lineString (key.toList ++ ' ' :: '=' :: rest) = none :=
    lineString_of_head (h.head_ne rfl) (h.head_ne rfl)
  have hafter : blanks (' ' :: '=' :: rest) = some ((), '=' :: rest) :=
    (blanks_cons _).trans (blanks_of_ne (by simp) (by simp))
  obtain ⟨hne, hall⟩ := h
  have hbare := List.all_eq_true.mp hall
  obtain ⟨c, others, hkey⟩ := List.exists_cons_of_ne_nil hne
  have hfirst : one keyPart.isBare (key.toList ++ ' ' :: '=' :: rest) =
      some (c, others ++ ' ' :: '=' :: rest) := by
    rw [hkey]
    exact one_of_pos (hbare c (by simp [hkey]))
  have hothers : span keyPart.isBare (others ++ ' ' :: '=' :: rest) =
      some (others, ' ' :: '=' :: rest) := by
    refine span_append (fun d hd => hbare d (by simp [hkey, hd])) fun d hd => ?_
    obtain rfl : ' ' = d := by simpa using hd
    rfl
  have hspelled : String.ofList (c :: others) = key := by rw [← hkey, String.ofList_toList]
  refine (bind_of_some hblanks _).trans ?_
  refine (bind_of_some ((orElse_of_none hquoted).trans ((bind_of_some hfirst _).trans
    ((bind_of_some hothers _).trans (congrArg (fun part => some (part, _)) hspelled)))) _).trans ?_
  exact (bind_of_some hafter _).trans rfl

theorem IsBareKey.key_append (h : IsBareKey key) :
    Toml.key (key.toList ++ ' ' :: '=' :: rest) = some (([], key), '=' :: rest) := by
  have hdot : (do
      let _ ← char '.'
      keyPart : Scan String) ('=' :: rest) = none := bind_of_none (char_of_ne (by simp)) _
  have hparts : separated keyPart (char '.') (key.toList ++ ' ' :: '=' :: rest) =
      some ([key], '=' :: rest) :=
    (bind_of_some h.keyPart_append _).trans (bind_of_some (many_of_none hdot) _)
  exact (bind_of_some hparts _).trans rfl

theorem assignment_line (h : IsBareKey key) {text : String} (hw : field.written? = some text)
    (depth : Nat) (rest : List Char) :
    ∃ v, field.value? = some v ∧
      assignment (value (depth + 1)) ((key ++ " = " ++ text ++ "\n").toList ++ rest) =
        some ((([], key), v), '\n' :: rest) := by
  obtain ⟨v, hv, hvalue⟩ := value_written hw depth rest
  have hblanks : blanks (' ' :: (text.toList ++ '\n' :: rest)) =
      some ((), text.toList ++ '\n' :: rest) :=
    (blanks_cons _).trans
      (blanks_of_ne (head_written_ne hw (by decide)) (head_written_ne hw (by decide)))
  have hline : (key ++ " = " ++ text ++ "\n").toList ++ rest =
      key.toList ++ ' ' :: '=' :: ' ' :: (text.toList ++ '\n' :: rest) := by simp
  refine ⟨v, hv, ?_⟩
  rw [hline]
  refine (bind_of_some h.key_append _).trans ?_
  refine (bind_of_some (char_cons '=' _) _).trans ((bind_of_some hblanks _).trans ?_)
  exact (bind_of_some hvalue _).trans rfl

theorem lineEnd_newline : lineEnd ('\n' :: rest) = some ((), rest) := by
  have hcomment : comment ('\n' :: rest) = none := bind_of_none (char_of_ne (by simp)) _
  refine (bind_of_some (blanks_of_ne (by simp) (by simp)) _).trans ?_
  refine (bind_of_some (optional_of_none hcomment) _).trans ?_
  exact orElse_of_some (newline_cons rest)

/-- What a document has again and again: a line, and the blanks before the next. -/
def nextLine : Scan Line := do
  let line ← blankLine <|> headerLine <|> entryLine
  blanks
  return line

theorem nextLine_line (h : IsBareKey key) {text : String} (hw : field.written? = some text)
    (hspace : rest.head? ≠ some ' ') (htab : rest.head? ≠ some '\t') :
    ∃ v, field.value? = some v ∧
      nextLine ((key ++ " = " ++ text ++ "\n").toList ++ rest) = some (.entry [] key v, rest) := by
  obtain ⟨v, hv, hassignment⟩ := assignment_line h hw (nestingLimit - 2) rest
  have hhead {d : Char} (hd : keyPart.isBare d = false) :
      ((key ++ " = " ++ text ++ "\n").toList ++ rest).head? ≠ some d := by
    rw [String.append_assoc, String.append_assoc, String.toList_append, List.append_assoc]
    exact h.head_ne hd
  generalize (key ++ " = " ++ text ++ "\n").toList ++ rest = line at hassignment hhead
  have hcomment : comment line = none := bind_of_none (char_of_ne (hhead rfl)) _
  have hblank : blankLine line = none :=
    bind_of_none ((orElse_of_none (bind_of_none hcomment _)).trans
      (newline_of_ne (hhead rfl) (hhead rfl))) _
  have hheader : headerLine line = none :=
    (orElse_of_none (bind_of_none (bind_of_none (char_of_ne (hhead rfl)) _) _)).trans
      (bind_of_none (char_of_ne (hhead rfl)) _)
  have hentry : entryLine line = some (.entry [] key v, rest) :=
    (bind_of_some hassignment _).trans ((bind_of_some lineEnd_newline _).trans rfl)
  refine ⟨v, hv, ?_⟩
  refine (bind_of_some ((orElse_of_none hblank).trans ((orElse_of_none hheader).trans hentry))
    _).trans ?_
  exact (bind_of_some (blanks_of_ne hspace htab) _).trans rfl

/-! ## Documents -/

/-- The entry that a field is written as, unless it is left out. -/
def entryOf? (field : String × Field) : Option (String × Value) :=
  field.2.value?.map fun value => (field.1, value)

/-- The line that gives a key a value. -/
def lineOf (entry : String × Value) : Line :=
  .entry [] entry.1 entry.2

theorem toList_intercalate_empty (texts : List String) :
    ("".intercalate texts).toList = texts.flatMap String.toList := by
  rw [String.toList_intercalate]
  induction texts with
  | nil => rfl
  | cons text texts ih =>
    rw [List.flatMap_cons, ← ih]
    cases texts <;> simp

theorem writtenLine?_cases (field : String × Field) :
    writtenLine? field = none ∧ entryOf? field = none ∨
      ∃ text, field.2.written? = some text ∧
        writtenLine? field = some (field.1 ++ " = " ++ text ++ "\n") := by
  cases hw : field.2.written? with
  | none =>
    have hv : field.2.value? = none := Field.written?_eq_none_iff.mp hw
    exact .inl ⟨by rw [writtenLine?, hw]; rfl, by rw [entryOf?, hv]; rfl⟩
  | some text => exact .inr ⟨text, rfl, by rw [writtenLine?, hw]; rfl⟩

theorem writtenFields_cons_of_none {field : String × Field} {fields : Fields}
    (h : writtenLine? field = none) : writtenFields (field :: fields) = writtenFields fields := by
  rw [writtenFields, List.filterMap_cons_none h, writtenFields]

theorem writtenFields_cons_of_some {field : String × Field} {fields : Fields} {line : String}
    (h : writtenLine? field = some line) :
    (writtenFields (field :: fields)).toList = line.toList ++ (writtenFields fields).toList := by
  rw [writtenFields, List.filterMap_cons_some h, toList_intercalate_empty, List.flatMap_cons,
    ← toList_intercalate_empty, writtenFields]

section Bare

variable {fields : Fields}

theorem head_writtenFields_ne (hbare : ∀ field ∈ fields, IsBareKey field.1) {d : Char}
    (hd : keyPart.isBare d = false) : (writtenFields fields).toList.head? ≠ some d := by
  induction fields with
  | nil =>
    have hnil : (writtenFields []).toList = [] := rfl
    simp [hnil]
  | cons field fields ih =>
    obtain ⟨hkey, hfields⟩ := List.forall_mem_cons.mp hbare
    obtain ⟨hline, -⟩ | ⟨text, -, hline⟩ := writtenLine?_cases field
    · rw [writtenFields_cons_of_none hline]
      exact ih hfields
    · rw [writtenFields_cons_of_some hline, String.append_assoc, String.append_assoc,
        String.toList_append, List.append_assoc]
      exact hkey.head_ne hd

theorem many_nextLine (hbare : ∀ field ∈ fields, IsBareKey field.1) :
    many nextLine (writtenFields fields).toList =
      some ((fields.filterMap entryOf?).map lineOf, []) := by
  induction fields with
  | nil => exact many_of_none rfl
  | cons field fields ih =>
    obtain ⟨hkey, hfields⟩ := List.forall_mem_cons.mp hbare
    obtain ⟨hline, hentry⟩ | ⟨text, hw, hline⟩ := writtenLine?_cases field
    · rw [writtenFields_cons_of_none hline, List.filterMap_cons_none hentry, ih hfields]
    · obtain ⟨v, hv, hnext⟩ := nextLine_line hkey hw (head_writtenFields_ne hfields rfl)
        (head_writtenFields_ne hfields rfl)
      have hentry : entryOf? field = some (field.1, v) := by
        rw [entryOf?, hv]
        rfl
      rw [writtenFields_cons_of_some hline, List.filterMap_cons_some hentry, List.map_cons]
      refine many_of_some hnext ?_ (ih hfields)
      simp
      omega

theorem lines_writtenFields (hbare : ∀ field ∈ fields, IsBareKey field.1) :
    lines (writtenFields fields).toList = some ((fields.filterMap entryOf?).map lineOf, []) := by
  have hmark : char '\uFEFF' (writtenFields fields).toList = none :=
    char_of_ne (head_writtenFields_ne hbare (by decide))
  have hblanks : blanks (writtenFields fields).toList = some ((), (writtenFields fields).toList) :=
    blanks_of_ne (head_writtenFields_ne hbare rfl) (head_writtenFields_ne hbare rfl)
  refine (bind_of_some (optional_of_none hmark) _).trans ((bind_of_some hblanks _).trans ?_)
  exact (bind_of_some (many_nextLine hbare) _).trans rfl

end Bare

theorem lookup_eq_none {α : Type} {entries : List (String × α)} (h : key ∉ entries.map Prod.fst) :
    entries.lookup key = none := by
  rw [List.lookup_eq_none_iff]
  intro entry hentry
  rw [bne_iff_ne]
  exact fun he => h (he ▸ List.mem_map_of_mem hentry)

/-- Lines that give different keys values add their entries in order. -/
theorem foldlM_addLine {before entries : Entries}
    (hnodup : ((before ++ entries).map Prod.fst).Nodup) :
    (entries.map lineOf).foldlM Document.addLine { content := before } =
      some { content := before ++ entries } := by
  induction entries generalizing before with
  | nil => simp
  | cons entry entries ih =>
    have hfree : before.lookup entry.1 = none := by
      rw [List.map_append, List.nodup_append] at hnodup
      exact lookup_eq_none fun h => hnodup.2.2 _ h _ (by simp) rfl
    have hadd : Document.addLine { content := before } (lineOf entry) =
        some { content := before ++ [entry] } := by
      simp [Document.addLine, lineOf, Entries.change, Entries.addDotted, Entries.addNew, hfree]
    have hsplit : before ++ entry :: entries = (before ++ [entry]) ++ entries := by simp
    rw [hsplit] at hnodup ⊢
    rw [List.map_cons, List.foldlM_cons, hadd]
    exact ih hnodup

theorem keys_filterMap_entryOf? (fields : Fields) :
    ((fields.filterMap entryOf?).map Prod.fst).Sublist (fields.map Prod.fst) := by
  induction fields with
  | nil => exact .slnil
  | cons field fields ih =>
    cases hentry : entryOf? field with
    | none =>
      rw [List.filterMap_cons_none hentry]
      exact ih.cons _
    | some entry =>
      obtain ⟨v, -, rfl⟩ := Option.map_eq_some_iff.mp hentry
      rw [List.filterMap_cons_some hentry]
      exact ih.cons_cons _

theorem parse?_writtenFields {fields : Fields} (hbare : ∀ field ∈ fields, IsBareKey field.1)
    (hnodup : (fields.map Prod.fst).Nodup) :
    Document.parse? (writtenFields fields) = some (fields.filterMap entryOf?) := by
  have hentries : (([] ++ fields.filterMap entryOf?).map Prod.fst).Nodup :=
    hnodup.sublist (keys_filterMap_entryOf? fields)
  have hfold := foldlM_addLine hentries
  rw [Document.parse?, lines_writtenFields hbare]
  show (((fields.filterMap entryOf?).map lineOf).foldlM Document.addLine {}).bind
    (fun document => some document.content) = _
  rw [hfold]
  rfl

theorem fieldsOf_entries {fields : Fields} (hknown : ∀ field ∈ fields, field.2 ≠ .other) :
    fieldsOf (fields.filterMap entryOf?) = fields.filter (·.2 ≠ .null) := by
  induction fields with
  | nil => rfl
  | cons field fields ih =>
    obtain ⟨name, field⟩ := field
    obtain ⟨hfield, hfields⟩ := List.forall_mem_cons.mp hknown
    cases field with
    | null => exact ih hfields
    | flag | text => exact congrArg (List.cons _) (ih hfields)
    | other => exact absurd rfl hfield

/-- Settings files leave nulls out, and keep the rest in order. -/
theorem lossless : format.Lossless := by
  intro fields h
  have hbare : ∀ field ∈ fields, IsBareKey field.1 := h.plain
  refine ⟨fields.filter (·.2 ≠ .null), ?_, ?_⟩
  · show (Document.parse? (writtenFields fields)).map fieldsOf = _
    rw [parse?_writtenFields hbare h.nodup, Option.map_some, fieldsOf_entries h.known]
  · exact {
      nodup := h.nodup.sublist (List.filter_sublist.map _)
      subset := List.filter_subset_self fields
      kept := fun field hmem hnull => List.mem_filter.mpr ⟨hmem, by simpa using hnull⟩ }

end Toml

end RdmRegistry
