import RobotsTxt.Directive
import RobotsTxt.Proofs.FieldNames
import RobotsTxt.Proofs.References

/-! Lines with a known field.  Such a line has a name for the field, as it is written, and a value; the
colon between them may be there or not.  A line that is made of a name, a colon, a space and a value
is read as these again. -/

namespace RobotsTxt.Directive

open Text (isBlank Trimmed)
open RobotsTxt.Field (isGap)

variable {field : Field} {name value : List Char}

/-! ### Colons -/

theorem ofColon?_append {name : List Char} (h : ':' ∉ name) (rest : List Char) :
    ofColon? (name ++ ':' :: rest) = (Field.ofName? name).map fun field =>
      ofField field name (Text.trimEnd (rest.dropWhile isGap)) (name ++ ':' :: rest) := by
  have hName := Url.Reference.forall_ne_of_not_mem h
  rw [ofColon?, List.span_eq_takeWhile_dropWhile, List.takeWhile_append_of_pos hName,
    List.dropWhile_append_of_pos hName]
  simp

theorem ofColon?_of_not_mem {line : List Char} (h : ':' ∉ line) : ofColon? line = none := by
  rw [ofColon?, List.span_eq_takeWhile_dropWhile,
    List.dropWhile_eq_nil_iff.mpr (Url.Reference.forall_ne_of_not_mem h)]

/-! ### Directives of fields -/

/-- Only a bare URL is read from the whole line. -/
theorem ofField_congr (h : field ≠ .bareUrl) (name value line other : List Char) :
    ofField field name value line = ofField field name value other := by
  cases field with
  | bareUrl => exact absurd rfl h
  | _ => rfl

theorem exists_ofUnknown_eq (line : List Char) :
    ∃ field value, ofUnknown line = unknown field value := by
  rw [ofUnknown]
  split <;> exact ⟨_, _, rfl⟩

theorem ofField_ne_unknown (h : field ≠ .bareUrl) (name value line : List Char)
    (field' value' : String) : ofField field name value line ≠ unknown field' value' := by
  cases field with
  | bareUrl => exact absurd rfl h
  | userAgent | extension => exact nofun
  | rule | crawlDelay | sitemap =>
    rw [ofField]
    split <;> exact nofun

/-! ### Values -/

/-- A text that is left of a line when the gap before it and the blanks behind it are gone. -/
structure IsValue (s : List Char) : Prop where
  start : ∀ c ∈ s.head?, isGap c = false
  last : ∀ c ∈ s.getLast?, isBlank c = false

theorem isGap_of_not_isBlank {c : Char} (h : isBlank c = false) : isGap c = false := by
  rw [Bool.eq_false_iff]
  intro hGap
  rw [Field.isBlank_of_isGap hGap] at h
  contradiction

theorem isValue_of_trimmed {s : List Char} (h : Trimmed s) : IsValue s :=
  ⟨fun c hc => isGap_of_not_isBlank (h.1 c hc), h.2⟩

/-- The value of a line. -/
theorem isValue_trimEnd (rest : List Char) : IsValue (Text.trimEnd (rest.dropWhile isGap)) := by
  refine ⟨fun c hc => ?_, fun c => Text.isBlank_of_getLast?_trimEnd⟩
  have hNot := List.head?_dropWhile_not isGap rest
  rw [Text.head?_of_trimEnd hc] at hNot
  exact hNot

theorem IsValue.trimEnd_dropWhile {s gap : List Char} (h : IsValue s)
    (hGap : ∀ c ∈ gap, isGap c = true) : Text.trimEnd ((gap ++ s).dropWhile isGap) = s := by
  rw [List.dropWhile_append_of_pos hGap]
  cases s with
  | nil => rfl
  | cons c s =>
    have hc : isGap c = false := h.start c rfl
    rw [List.dropWhile_cons_of_neg (by simp [hc]), Text.trimEnd_eq_self h.last]

/-! ### Names and values -/

/-- The name and the value of a line with a known field. -/
structure HasField (field : Field) (name value : List Char) : Prop where
  ofName? : Field.ofName? name = some field
  colonless : ':' ∉ name
  start : ∀ c ∈ name.head?, isBlank c = false
  value : IsValue value

theorem HasField.of_isSpelled (h : Field.IsSpelled name field) (hValue : IsValue value) :
    HasField field name value where
  ofName? := h.standsFor.ofName?_eq
  colonless := h.colonless
  start := h.trimmed.1
  value := hValue

/-- A line is unknown, or it has a field, with a colon or without. -/
theorem ofLine_cases {line : List Char} (h : Trimmed line) : ofLine line = ofUnknown line ∨
    ∃ field name value, HasField field name value ∧
      ofLine line = ofField field name value line := by
  cases hColon : ofColon? line with
  | some d =>
    refine .inr ?_
    by_cases hMem : ':' ∈ line
    · obtain ⟨name, rest, rfl, hName⟩ := List.eq_append_cons_of_mem hMem
      have hRead := ofColon?_append hName rest
      rw [hColon] at hRead
      obtain ⟨field, hField, rfl⟩ := Option.map_eq_some_iff.mp hRead.symm
      refine ⟨field, name, _, ⟨hField, hName, fun c hc => h.1 c ?_, isValue_trimEnd rest⟩, ?_⟩
      · rw [List.head?_append, hc, Option.some_or]
        rfl
      · rw [ofLine, hColon]
        rfl
    · simp [ofColon?_of_not_mem hMem] at hColon
  | none =>
    cases hBare : ofBare? line with
    | some d =>
      obtain ⟨⟨field, name, value⟩, hSplit, rfl⟩ := Option.map_eq_some_iff.mp hBare
      obtain ⟨c, rest, -, -, hName, rfl⟩ := Field.exists_of_splitBare? hSplit
      refine .inr ⟨field, name, _, .of_isSpelled hName (isValue_trimEnd rest), ?_⟩
      rw [ofLine, hColon, hBare]
      rfl
    | none =>
      refine .inl ?_
      rw [ofLine, hColon, hBare]
      rfl

/-- A name, a colon, a space and a value: without a value the space is trimmed away. -/
theorem exists_trim_eq (hName : ∀ c ∈ name.head?, isBlank c = false) (h : IsValue value) :
    ∃ rest, Text.trim (name ++ ':' :: ' ' :: value) = name ++ ':' :: rest ∧
      Text.trimEnd (rest.dropWhile isGap) = value := by
  have hColon : isBlank ':' = false := by decide
  have hGap : ∀ c ∈ [' '], isGap c = true := List.forall_mem_singleton.mpr rfl
  refine ⟨Text.trimEnd (' ' :: value), ?_, ?_⟩
  · rw [Text.trim_append_cons hColon, Text.trimStart_eq_self hName]
  · cases value with
    | nil => rfl
    | cons c value =>
      have hEnd : Text.trimEnd (' ' :: c :: value) = ' ' :: c :: value :=
        Text.trimEnd_eq_self fun d hd => h.last d (by rwa [List.getLast?_cons_cons] at hd)
      rw [hEnd]
      exact h.trimEnd_dropWhile hGap

/-- A line that is made of a name, a colon, a space and a value has these. -/
theorem HasField.ofLine_trim (h : HasField field name value) : ∃ line,
    ofLine (Text.trim (name ++ ':' :: ' ' :: value)) = ofField field name value line := by
  obtain ⟨rest, hTrim, hValue⟩ := exists_trim_eq h.start h.value
  refine ⟨name ++ ':' :: rest, ?_⟩
  rw [hTrim, ofLine, ofColon?_append h.colonless, h.ofName?, hValue]
  rfl

end RobotsTxt.Directive
