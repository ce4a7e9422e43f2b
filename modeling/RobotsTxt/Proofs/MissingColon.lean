import RobotsTxt.Proofs.FieldLines

/-! Lines that lack their colon.  A name and a value with a gap between them say the same as with a
colon if the name is spelled as in the table.  A name that is told by its canonical form only, since
it has underscores or blanks other than single spaces, is not found without its colon. -/

namespace RobotsTxt.Directive

open Text (isBlank Trimmed)
open RobotsTxt.Field (isGap StandsFor IsSpelled SingleSpaced)

variable {field : Field} {name gap value : List Char}

/-! ### The two ways to read a line -/

/-- A name that stands for a field, a gap, and a value that does not start with a colon. -/
structure LacksColon (field : Field) (name gap value : List Char) : Prop where
  standsFor : StandsFor name field
  name_trimmed : Trimmed name
  name_colonless : ':' ∉ name
  gap_ne_nil : gap ≠ []
  gap_isGap : ∀ c ∈ gap, isGap c = true
  value_trimmed : Trimmed value
  value_lead : value.head? ≠ some ':'

/-- With a colon the name is found, in whatever way it is written. -/
theorem LacksColon.ofLine_colon (h : LacksColon field name gap value) :
    ofLine (name ++ ':' :: ' ' :: value) =
      ofField field name value (name ++ ':' :: ' ' :: value) := by
  have hGap : ∀ c ∈ [' '], isGap c = true := List.forall_mem_singleton.mpr rfl
  have hValue : Text.trimEnd ((' ' :: value).dropWhile isGap) = value :=
    (isValue_of_trimmed h.value_trimmed).trimEnd_dropWhile hGap
  rw [ofLine, ofColon?_append h.name_colonless, h.standsFor.ofName?_eq, hValue]
  rfl

/-- A colon in the value is of no use: the text before it is no name, since it starts with one. -/
theorem LacksColon.ofColon?_eq_none (h : LacksColon field name gap value) :
    ofColon? (name ++ gap ++ value) = none := by
  have hGapColon : ':' ∉ gap := fun hMem => absurd (h.gap_isGap _ hMem) (by decide)
  by_cases hMem : ':' ∈ value
  · obtain ⟨before, after, rfl, hBefore⟩ := List.eq_append_cons_of_mem hMem
    obtain ⟨c, gap, rfl⟩ := List.exists_cons_of_ne_nil h.gap_ne_nil
    obtain ⟨hc, -⟩ := List.forall_mem_cons.mp h.gap_isGap
    cases before with
    | nil => exact absurd rfl h.value_lead
    | cons d before =>
      have hd : isBlank d = false := h.value_trimmed.1 d rfl
      have hWords : Text.words (gap ++ d :: before) ≠ [] := Text.words_ne_nil hd (by simp)
      have hNone := h.standsFor.ofName?_append (Field.isBlank_of_isGap hc) hWords
      have hColonless : ':' ∉ name ++ c :: (gap ++ d :: before) := by
        simp only [List.mem_cons, List.mem_append, not_or] at hGapColon hBefore ⊢
        exact ⟨h.name_colonless, hGapColon.1, hGapColon.2, hBefore⟩
      have hRead := ofColon?_append hColonless after
      rw [hNone] at hRead
      simpa using hRead
  · refine ofColon?_of_not_mem ?_
    simp [h.name_colonless, hGapColon, hMem]

/-- Without a colon the name is found if it is spelled as in the table. -/
theorem LacksColon.ofLine_gap (h : LacksColon field name gap value) :
    ofLine (name ++ gap ++ value) =
      if IsSpelled name field then ofField field name value (name ++ gap ++ value)
      else ofUnknown (name ++ gap ++ value) := by
  obtain ⟨c, gap, rfl⟩ := List.exists_cons_of_ne_nil h.gap_ne_nil
  obtain ⟨hc, hMore⟩ := List.forall_mem_cons.mp h.gap_isGap
  rw [ofLine, h.ofColon?_eq_none, Option.none_or, List.append_assoc, List.cons_append, ofBare?]
  split
  · rename_i hSpelled
    have hValue := (isValue_of_trimmed h.value_trimmed).trimEnd_dropWhile hMore
    rw [hSpelled.splitBare?_eq hc, Option.map_some, Option.getD_some]
    simp only [hValue]
  · rename_i hNot
    rw [h.standsFor.splitBare?_eq_none h.name_trimmed hNot hc]
    rfl

/-- A line with a known name, a gap and a value gives the directive that it gives with a colon
exactly if the name has no underscores and no blanks other than single spaces.  The case of its
letters does not count, and the value may have colons, only not in front.  If the name is written
in another way the line is unknown. -/
theorem ofLine_missing_colon (h : LacksColon field name gap value) :
    (ofLine (name ++ gap ++ value) = ofLine (name ++ ':' :: ' ' :: value) ↔
      '_' ∉ name ∧ SingleSpaced name) ∧
    (¬('_' ∉ name ∧ SingleSpaced name) →
      ofLine (name ++ gap ++ value) = ofUnknown (name ++ gap ++ value)) := by
  have hWithout := h.ofLine_gap
  rw [← h.standsFor.isSpelled_iff h.name_trimmed]
  by_cases hSpelled : IsSpelled name field
  · rw [if_pos hSpelled] at hWithout
    refine ⟨iff_of_true ?_ hSpelled, fun hNot => absurd hSpelled hNot⟩
    rw [hWithout, h.ofLine_colon]
    exact ofField_congr h.standsFor.ne_bareUrl ..
  · rw [if_neg hSpelled] at hWithout
    refine ⟨iff_of_false (fun hSame => ?_) hSpelled, fun _ => hWithout⟩
    obtain ⟨field', value', hUnknown⟩ := exists_ofUnknown_eq (name ++ gap ++ value)
    rw [hWithout, hUnknown, h.ofLine_colon] at hSame
    exact ofField_ne_unknown h.standsFor.ne_bareUrl _ _ _ _ _ hSame.symm

/-- A name of two words in letters of both cases, and a value with colons. -/
theorem ofLine_missing_colon_agent :
    LacksColon .userAgent "User Agent".toList "\t ".toList "a: b:".toList ∧
      ofLine "User Agent\t a: b:".toList = ofLine "User Agent: a: b:".toList := by
  have hLine : LacksColon .userAgent "User Agent".toList "\t ".toList "a: b:".toList :=
    { standsFor := by decide +kernel
      name_trimmed := Text.trimmed_of_trim_eq (by decide +kernel)
      name_colonless := by decide
      gap_ne_nil := by decide
      gap_isGap := List.all_iff_forall_prop.mp (by decide)
      value_trimmed := Text.trimmed_of_trim_eq (by decide +kernel)
      value_lead := by decide }
  exact ⟨hLine, (ofLine_missing_colon hLine).1.mpr (by decide +kernel)⟩

/-- With an underscore in its name a line without a colon is not the line with one. -/
theorem ofLine_missing_colon_underscore :
    LacksColon .userAgent "user_agent".toList [' '] "a".toList ∧
      ofLine "user_agent a".toList = unknown "user_agent a" "" ∧
      ofLine "user_agent: a".toList = userAgent "a" ∧
      ofLine "user_agent a".toList ≠ ofLine "user_agent: a".toList := by
  have hLine : LacksColon .userAgent "user_agent".toList [' '] "a".toList :=
    { standsFor := by decide +kernel
      name_trimmed := Text.trimmed_of_trim_eq (by decide +kernel)
      name_colonless := by decide
      gap_ne_nil := by decide
      gap_isGap := List.all_iff_forall_prop.mp (by decide)
      value_trimmed := Text.trimmed_of_trim_eq (by decide)
      value_lead := by decide }
  have hWithout : ofLine "user_agent a".toList = unknown "user_agent a" "" := rfl
  have hWith : ofLine "user_agent: a".toList = userAgent "a" := rfl
  refine ⟨hLine, hWithout, hWith, ?_⟩
  rw [hWithout, hWith]
  exact nofun

end RobotsTxt.Directive
