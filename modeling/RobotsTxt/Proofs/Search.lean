import Mathlib.Data.List.Basic
import RobotsTxt.Text.Search

/-! Where a word occurs in a text.  An occurrence is a way to write the text as the word with
something before and after it; the leftmost has the shortest text before it.  The search of
`afterFirst` finds the leftmost occurrence, and finds none only if there is none. -/

namespace RobotsTxt.Text

theorem isPrefixOf?_eq_some_iff {word s after : List Char} :
    word.isPrefixOf? s = some after ↔ s = word ++ after := by
  induction word generalizing s with
  | nil => simp [List.isPrefixOf?]
  | cons w word ih =>
    cases s with
    | nil => simp [List.isPrefixOf?]
    | cons c s =>
      by_cases h : w = c
      · simp [List.isPrefixOf?, h, ih]
      · simp [List.isPrefixOf?, h, Ne.symm h]

theorem isPrefixOf?_eq_none_iff {word s : List Char} :
    word.isPrefixOf? s = none ↔ ∀ after, s ≠ word ++ after := by
  simp only [Option.eq_none_iff_forall_ne_some, ne_eq, isPrefixOf?_eq_some_iff]

/-- The leftmost occurrence of `word` in `s` is the one between `before` and `after`. -/
structure Leftmost (word s before after : List Char) : Prop where
  split : s = before ++ word ++ after
  least : ∀ u v, s = u ++ word ++ v → before.length ≤ u.length

theorem leftmost_nil (word after : List Char) : Leftmost word (word ++ after) [] after :=
  ⟨rfl, fun _ _ _ => Nat.zero_le _⟩

/-- Where a word does not start a text, its occurrences are those in the rest. -/
theorem split_cons_iff {word rest u v : List Char} {c : Char}
    (hStart : ∀ after, c :: rest ≠ word ++ after) :
    c :: rest = u ++ word ++ v ↔ ∃ u', u = c :: u' ∧ rest = u' ++ word ++ v := by
  cases u with
  | nil => simpa using hStart v
  | cons d u =>
    simp only [List.cons_append, List.cons.injEq]
    constructor
    · rintro ⟨rfl, h⟩
      exact ⟨u, ⟨rfl, rfl⟩, h⟩
    · rintro ⟨_, ⟨rfl, rfl⟩, h⟩
      exact ⟨rfl, h⟩

theorem Leftmost.cons {word rest before after : List Char} {c : Char}
    (hStart : ∀ after, c :: rest ≠ word ++ after) (h : Leftmost word rest before after) :
    Leftmost word (c :: rest) (c :: before) after := by
  refine ⟨by rw [h.split]; rfl, fun u v huv => ?_⟩
  obtain ⟨u', rfl, hRest⟩ := (split_cons_iff hStart).mp huv
  exact Nat.succ_le_succ (h.least u' v hRest)

theorem Leftmost.tail {word s before after : List Char} {c d : Char}
    (h : Leftmost word (c :: s) (d :: before) after) : Leftmost word s before after := by
  obtain ⟨hSplit, hLeast⟩ := h
  simp only [List.cons_append, List.cons.injEq] at hSplit
  refine ⟨hSplit.2, fun u v huv => ?_⟩
  have hLonger := hLeast (c :: u) v (by rw [huv]; rfl)
  exact Nat.le_of_succ_le_succ hLonger

theorem Leftmost.unique {word s before after before' after' : List Char}
    (h : Leftmost word s before after) (h' : Leftmost word s before' after') :
    before = before' ∧ after = after' := by
  have hLength : before.length = before'.length :=
    Nat.le_antisymm (h.least _ _ h'.split) (h'.least _ _ h.split)
  have hSplit : before ++ (word ++ after) = before' ++ (word ++ after') := by
    rw [← List.append_assoc, ← List.append_assoc, ← h.split, h'.split]
  obtain ⟨hBefore, hAfter⟩ := List.append_inj hSplit hLength
  exact ⟨hBefore, List.append_cancel_left hAfter⟩

theorem Leftmost.length_lt {word s before after : List Char} (hWord : word ≠ [])
    (h : Leftmost word s before after) : after.length < s.length := by
  have hPositive := List.length_pos_iff.mpr hWord
  rw [h.split]
  simp only [List.length_append]
  omega

/-- The search finds the leftmost occurrence. -/
theorem leftmost_of_afterFirst {word s after : List Char} (h : afterFirst word s = some after) :
    ∃ before, Leftmost word s before after := by
  induction s with
  | nil =>
    have hSplit := isPrefixOf?_eq_some_iff.mp h
    exact ⟨[], hSplit ▸ leftmost_nil word after⟩
  | cons c rest ih =>
    rw [afterFirst] at h
    split at h
    · rename_i found hStart
      obtain rfl := Option.some.inj h
      exact ⟨[], isPrefixOf?_eq_some_iff.mp hStart ▸ leftmost_nil word found⟩
    · rename_i hStart
      obtain ⟨before, hLeft⟩ := ih h
      exact ⟨c :: before, hLeft.cons (isPrefixOf?_eq_none_iff.mp hStart)⟩

/-- The search finds an occurrence if there is one. -/
theorem afterFirst_append (word u v : List Char) :
    ∃ after, afterFirst word (u ++ word ++ v) = some after := by
  induction u with
  | nil =>
    have hStart := isPrefixOf?_eq_some_iff.mpr (rfl : word ++ v = word ++ v)
    refine ⟨v, ?_⟩
    rw [List.nil_append]
    cases hText : word ++ v with
    | nil => rw [afterFirst, ← hText, hStart]
    | cons c rest => rw [afterFirst, ← hText, hStart]
  | cons c u ih =>
    obtain ⟨after, hAfter⟩ := ih
    rw [List.cons_append, List.cons_append, afterFirst]
    split
    · exact ⟨_, rfl⟩
    · exact ⟨after, hAfter⟩

theorem isSome_afterFirst_iff {word s : List Char} :
    (afterFirst word s).isSome = true ↔ ∃ u v, s = u ++ word ++ v := by
  constructor
  · intro h
    obtain ⟨after, hAfter⟩ := Option.isSome_iff_exists.mp h
    obtain ⟨before, hLeft⟩ := leftmost_of_afterFirst hAfter
    exact ⟨before, after, hLeft.split⟩
  · rintro ⟨u, v, rfl⟩
    exact Option.isSome_iff_exists.mpr (afterFirst_append word u v)

/-- What follows the leftmost occurrence ends with what follows any other. -/
theorem Leftmost.suffix {word s before after u v : List Char} (h : Leftmost word s before after)
    (huv : s = u ++ word ++ v) : v <:+ after := by
  have hAfter : after <:+ s := ⟨before ++ word, h.split.symm⟩
  have hv : v <:+ s := ⟨u ++ word, huv.symm⟩
  refine List.suffix_of_suffix_length_le hv hAfter ?_
  have hLength := congrArg List.length (h.split.symm.trans huv)
  have hLeast := h.least u v huv
  simp only [List.length_append] at hLength
  omega

end RobotsTxt.Text
