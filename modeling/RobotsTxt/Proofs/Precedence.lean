import RobotsTxt.Policy

/-! What the order of precedence decides.  Rules in that order are a permutation of the rules, the
most specific first and of equally specific ones those that allow first, so the first rule that
matches a path is an allowing one exactly if one of the most specific matching rules is.  The list
that a path is looked up in plays no part in the statement. -/

namespace RobotsTxt

namespace Rule

theorem precedes_iff (a b : Rule) : precedes a b = true ↔
    b.pattern.specificity < a.pattern.specificity ∨
      a.pattern.specificity = b.pattern.specificity ∧ (b.allows = true → a.allows = true) := by
  cases ha : a.allows <;> cases hb : b.allows <;> simp [precedes, ha, hb]

theorem precedes_refl (a : Rule) : precedes a a = true := by simp [precedes_iff]

theorem precedes_trans (a b c : Rule) (hab : precedes a b = true) (hbc : precedes b c = true) :
    precedes a c = true := by
  rw [precedes_iff] at *
  rcases hab with hab | ⟨hab, hAllow⟩
  · exact .inl (by omega)
  · rcases hbc with hbc | ⟨hbc, hAllow'⟩
    · exact .inl (by omega)
    · exact .inr ⟨hab.trans hbc, fun h => hAllow (hAllow' h)⟩

theorem precedes_total (a b : Rule) : (precedes a b || precedes b a) = true := by
  rw [Bool.or_eq_true, precedes_iff, precedes_iff]
  rcases Nat.lt_trichotomy a.pattern.specificity b.pattern.specificity with h | h | h
  · exact .inr (.inl h)
  · cases hb : b.allows
    · exact .inl (.inr ⟨h, by simp⟩)
    · exact .inr (.inr ⟨h.symm, by simp⟩)
  · exact .inl (.inl h)

theorem inPrecedence_perm (rules : List Rule) : (inPrecedence rules).Perm rules :=
  List.mergeSort_perm rules precedes

theorem inPrecedence_pairwise (rules : List Rule) :
    (inPrecedence rules).Pairwise (precedes · ·) :=
  List.pairwise_mergeSort precedes_trans precedes_total rules

@[simp] theorem mem_inPrecedence {r : Rule} {rules : List Rule} :
    r ∈ inPrecedence rules ↔ r ∈ rules :=
  (inPrecedence_perm rules).mem_iff

/-- Whether the pattern of the rule matches a path in normal form. -/
def Matches (path : List Char) (r : Rule) : Prop := r.pattern.matchesNormal path = true

/-- Whether a set of rules allows a path in normal form: none matches, or one of the most specific
matching rules allows. -/
def Allowed (path : List Char) (rules : Rule → Prop) : Prop :=
  (∀ r, rules r → ¬r.Matches path) ∨
    ∃ r, rules r ∧ r.Matches path ∧ r.allows = true ∧
      ∀ other, rules other → other.Matches path →
        other.pattern.specificity ≤ r.pattern.specificity

end Rule

namespace Policy

/-- The first match in a list in precedence order may stand before every other match. -/
theorem precedes_of_find?_eq_some {rules : List Rule} {matched : Rule → Bool} {first r : Rule}
    (hSorted : rules.Pairwise (Rule.precedes · ·)) (hFirst : rules.find? matched = some first)
    (hr : r ∈ rules) (hMatch : matched r = true) : Rule.precedes first r = true := by
  obtain ⟨-, before, after, rfl, hBefore⟩ := List.find?_eq_some_iff_append.mp hFirst
  rcases List.mem_append.mp hr with hEarly | hLate
  · have := hBefore r hEarly
    simp [hMatch] at this
  · rcases List.mem_cons.mp hLate with rfl | hLater
    · exact Rule.precedes_refl r
    · have hTail := (List.pairwise_append.mp hSorted).2.1
      exact (List.pairwise_cons.mp hTail).1 r hLater

/-- A lookup in rules in precedence order allows a path exactly if the rules as a set do. -/
theorem allowsPath_inPrecedence (rules : List Rule) (path : List Char) :
    allowsPath (Rule.inPrecedence rules) path = true ↔ Rule.Allowed path (· ∈ rules) := by
  unfold allowsPath
  cases hFirst : (Rule.inPrecedence rules).find? fun r => r.pattern.matchesNormal path with
  | none =>
    have hNone : ∀ r ∈ rules, ¬r.Matches path := by
      simpa [Rule.Matches] using hFirst
    exact iff_of_true rfl (.inl hNone)
  | some first =>
    have hMem : first ∈ rules := by simpa using List.mem_of_find?_eq_some hFirst
    have hMatch : first.Matches path := by
      simpa [Rule.Matches] using List.find?_some hFirst
    have hPrec : ∀ r ∈ rules, r.Matches path → Rule.precedes first r = true := fun r hr hm =>
      precedes_of_find?_eq_some (Rule.inPrecedence_pairwise rules) hFirst (by simpa using hr) hm
    constructor
    · intro hAllow
      refine .inr ⟨first, hMem, hMatch, hAllow, fun other hOther hm => ?_⟩
      rcases (Rule.precedes_iff _ _).mp (hPrec other hOther hm) with h | ⟨h, -⟩ <;> omega
    · rintro (hNone | ⟨r, hr, hm, hAllow, hMost⟩)
      · exact absurd hMatch (hNone first hMem)
      · -- `r` is no less specific than `first`, so it can only stand behind as an equal
        have hLe := hMost first hMem hMatch
        rcases (Rule.precedes_iff _ _).mp (hPrec r hr hm) with h | ⟨-, h⟩
        · omega
        · exact h hAllow

end Policy

end RobotsTxt
