import RobotsTxt.Proofs.Glob
import RobotsTxt.Proofs.NormalForm

/-! Percent signs that start no escape.  A directive value is malformed if one of the texts between
its stars has such a sign; that a trailing dollar sign is split off, and that the value is read from
the root of the path, changes nothing. -/

namespace RobotsTxt

namespace Percent

def IsDigit (c : Char) : Prop := (Text.digitValue? c).isSome = true

instance (c : Char) : Decidable (IsDigit c) :=
  inferInstanceAs (Decidable ((Text.digitValue? c).isSome = true))

/-- A text starts with two hexadecimal digits. -/
def StartsWithByte (s : List Char) : Prop :=
  ∃ high low rest, s = high :: low :: rest ∧ IsDigit high ∧ IsDigit low

/-- A percent sign stands in a text without two hexadecimal digits behind it. -/
def HasStray (s : List Char) : Prop := ∃ before after, s = before ++ '%' :: after ∧
  ¬StartsWithByte after

theorem isSome_byte?_iff {high low : Char} :
    (byte? high low).isSome = true ↔ IsDigit high ∧ IsDigit low := by
  rw [byte?, IsDigit, IsDigit]
  cases Text.digitValue? high <;> cases Text.digitValue? low <;> simp

theorem hasStray_cons_iff {c : Char} {s : List Char} :
    HasStray (c :: s) ↔ c = '%' ∧ ¬StartsWithByte s ∨ HasStray s := by
  constructor
  · rintro ⟨before, after, hText, hAfter⟩
    rcases List.cons_eq_append_iff.mp hText with ⟨rfl, hHere⟩ | ⟨before, rfl, rfl⟩
    · obtain ⟨hSign, rfl⟩ := List.cons_eq_cons.mp hHere
      exact .inl ⟨hSign.symm, hAfter⟩
    · exact .inr ⟨before, after, rfl, hAfter⟩
  · rintro (⟨rfl, hAfter⟩ | ⟨before, after, rfl, hAfter⟩)
    · exact ⟨[], s, rfl, hAfter⟩
    · exact ⟨c :: before, after, rfl, hAfter⟩

theorem not_hasStray_nil : ¬HasStray [] := by
  rintro ⟨before, after, hText, -⟩
  simp at hText

theorem IsDigit.ne_percent {c : Char} (h : IsDigit c) : c ≠ '%' := by
  rintro rfl
  exact absurd h (by decide)

theorem malformed_iff (s : List Char) : malformed s = true ↔ HasStray s := by
  rw [malformed]
  induction s using scan.induct with
  | case1 high low rest byte hByte ih =>
    obtain ⟨hHigh, hLow⟩ := isSome_byte?_iff.mp (Option.isSome_of_eq_some hByte)
    have hStarts : StartsWithByte (high :: low :: rest) := ⟨high, low, rest, rfl, hHigh, hLow⟩
    rw [scan_escaped hByte, List.contains_cons, hasStray_cons_iff, hasStray_cons_iff,
      hasStray_cons_iff, ← ih]
    simp [hStarts, hHigh.ne_percent, hLow.ne_percent]
  | case2 high low rest hByte ih =>
    have hNot : ¬StartsWithByte (high :: low :: rest) := by
      rintro ⟨_, _, _, ⟨⟩, hDigits⟩
      simpa [hByte] using isSome_byte?_iff.mpr hDigits
    rw [scan, hByte, List.contains_cons, hasStray_cons_iff]
    simp [hNot]
  | case3 c rest hShort ih =>
    rw [hasStray_cons_iff, ← ih]
    by_cases hc : c = '%'
    · subst hc
      have hNot : ¬StartsWithByte rest := by
        rintro ⟨high, low, more, rfl, -⟩
        exact hShort high low more rfl rfl
      rw [scan_stray fun high low more hRest => absurd hRest (hShort high low more rfl)]
      simp [hNot]
    · simp [scan_cons_of_ne hc, hc]
  | case4 => simp [scan, not_hasStray_nil]

instance (s : List Char) : Decidable (HasStray s) := decidable_of_iff _ (malformed_iff s)

/-- A sign that is no digit and no percent sign keeps apart what stands before it and behind it. -/
theorem malformed_append_cons {c : Char} (hSign : c ≠ '%') (hDigit : Text.digitValue? c = none)
    (a b : List Char) : malformed (a ++ c :: b) = (malformed a || malformed b) := by
  rw [malformed, scan_append (by simpa using hDigit), scan_cons_of_ne hSign]
  simp [malformed]

theorem malformed_intercalate (segments : List (List Char)) :
    malformed (['*'].intercalate segments) = segments.any malformed := by
  induction segments with
  | nil => rfl
  | cons segment segments ih =>
    cases segments with
    | nil => simp
    | cons next segments =>
      rw [List.intercalate_cons_cons, List.append_assoc, List.singleton_append,
        malformed_append_cons (by decide) (by decide), ih, ← List.any_cons]

end Percent

namespace Pattern

/-- Between two stars of a text, or at an end of it, stands a stray percent sign. -/
def HasStray (s : List Char) : Prop := ∃ segment ∈ s.splitOn '*', Percent.HasStray segment

instance (s : List Char) : Decidable (HasStray s) :=
  inferInstanceAs (Decidable (∃ segment ∈ s.splitOn '*', Percent.HasStray segment))

theorem any_malformed_splitOn (s : List Char) :
    (s.splitOn '*').any Percent.malformed = Percent.malformed s := by
  rw [← Percent.malformed_intercalate, List.intercalate_splitOn]

theorem malformed_rooted (body : List Char) :
    Percent.malformed (rooted body) = Percent.malformed body := by
  cases body with
  | nil => rfl
  | cons c rest =>
    rw [rooted]
    split
    · rfl
    · exact Percent.malformed_append_cons (by decide) (by decide) [] (c :: rest)

theorem malformed_splitAnchor (source : List Char) :
    Percent.malformed (splitAnchor source).1 = Percent.malformed source := by
  by_cases hLast : ∃ body, source = body ++ ['$']
  · obtain ⟨body, rfl⟩ := hLast
    rw [splitAnchor_append, Percent.malformed_append_cons (by decide) (by decide)]
    simp [Percent.malformed, Percent.scan]
  · rw [splitAnchor_of_ne fun body hSource => hLast ⟨body, hSource⟩]

theorem malformed_iff (raw : String) : malformed raw = true ↔ HasStray (Text.trim raw.toList) := by
  have hSegments : (segments (Text.trim raw.toList)).any Percent.malformed =
      Percent.malformed (rooted (splitAnchor (Text.trim raw.toList)).1) := by
    rw [segments]
    split
    · rename_i hNil
      rw [hNil]
      rfl
    · exact any_malformed_splitOn _
  rw [malformed, hSegments, malformed_rooted, malformed_splitAnchor, ← any_malformed_splitOn,
    List.any_eq_true]
  simp only [Percent.malformed_iff, HasStray]

end Pattern

end RobotsTxt
