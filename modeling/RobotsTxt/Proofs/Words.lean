import Mathlib
import RobotsTxt.Text.Words

/-! The words of a text, which are what stands between its blanks, and small letters of ASCII in it.
No letter is blank, so a text has the same words in letters of any case. -/

namespace RobotsTxt.Text

/-! ### Words -/

/-- The words on both sides of a blank. -/
theorem words_append_cons {c : Char} (h : isBlank c = true) (a b : List Char) :
    words (a ++ c :: b) = words a ++ words b := by
  simp only [words, wordsBy, List.splitOnP_append_cons a b h, List.filter_append]

theorem words_cons {c : Char} (h : isBlank c = true) (s : List Char) : words (c :: s) = words s :=
  words_append_cons h [] s

section Blank

variable {blanks : List Char} (h : ∀ c ∈ blanks, isBlank c = true)

include h

theorem words_blank_append (s : List Char) : words (blanks ++ s) = words s := by
  induction blanks with
  | nil => rfl
  | cons c blanks ih =>
    obtain ⟨hFirst, hRest⟩ := List.forall_mem_cons.mp h
    rw [List.cons_append, words_cons hFirst, ih hRest]

theorem words_blank : words blanks = [] := by
  have hNone := words_blank_append h []
  rwa [List.append_nil] at hNone

theorem words_append_blank (s : List Char) : words (s ++ blanks) = words s := by
  cases blanks with
  | nil => rw [List.append_nil]
  | cons c blanks =>
    obtain ⟨hFirst, hRest⟩ := List.forall_mem_cons.mp h
    rw [words_append_cons hFirst, words_blank hRest, List.append_nil]

end Blank

theorem words_trim (s : List Char) : words (trim s) = words s := by
  have hTaken : ∀ {s : List Char}, ∀ c ∈ s.takeWhile isBlank, isBlank c = true :=
    fun c hc => List.mem_takeWhile_imp hc
  have hEnd : ∀ s, words (trimEnd s) = words s := by
    intro s
    have hSplit : trimEnd s ++ (s.reverse.takeWhile isBlank).reverse = s := by
      rw [trimEnd, ← List.reverse_append, List.takeWhile_append_dropWhile, List.reverse_reverse]
    rw [← words_append_blank (fun c hc => hTaken c (List.mem_reverse.mp hc)) (trimEnd s), hSplit]
  have hStart := words_blank_append (hTaken (s := s)) (trimStart s)
  rw [trimStart, List.takeWhile_append_dropWhile] at hStart
  rw [trim, hEnd, trimStart, hStart]

/-- A text that is more than blanks has words. -/
theorem words_ne_nil {c : Char} {s : List Char} (hc : isBlank c = false) (h : c ∈ s) :
    words s ≠ [] := by
  induction s with
  | nil => contradiction
  | cons d s ih =>
    by_cases hd : isBlank d = true
    · rw [words_cons hd]
      refine ih ((List.mem_cons.mp h).resolve_left ?_)
      rintro rfl
      simp [hd] at hc
    · obtain ⟨first, rest, hSplit⟩ := List.exists_cons_of_ne_nil (List.splitOnP_ne_nil isBlank s)
      simp [words, wordsBy, List.splitOnP_cons_eq_if_modifyHead, hd, hSplit]

theorem words_singleton {c : Char} (hc : isBlank c = false) : words [c] = [[c]] := by
  simp [words, wordsBy, List.splitOnP_cons_eq_if_modifyHead, hc]

/-- A letter before a letter is in the same word. -/
theorem exists_words_cons_cons {c d : Char} (hc : isBlank c = false) (hd : isBlank d = false)
    (s : List Char) : ∃ word more, words (d :: s) = word :: more ∧
      words (c :: d :: s) = (c :: word) :: more := by
  obtain ⟨first, rest, hSplit⟩ := List.exists_cons_of_ne_nil (List.splitOnP_ne_nil isBlank s)
  refine ⟨d :: first, rest.filter fun word => !word.isEmpty, ?_, ?_⟩ <;>
    simp [words, wordsBy, List.splitOnP_cons_eq_if_modifyHead, hc, hd, hSplit]

/-- The words of a text whose characters are changed, but not into blanks or from them. -/
theorem words_map {f : Char → Char} (h : ∀ c, isBlank (f c) = isBlank c) (s : List Char) :
    words (s.map f) = (words s).map (List.map f) := by
  have hSplit : (s.map f).splitOnP isBlank = (s.splitOnP isBlank).map (List.map f) := by
    induction s with
    | nil => rfl
    | cons c s ih =>
      rw [List.map_cons, List.splitOnP_cons_eq_if_modifyHead, List.splitOnP_cons_eq_if_modifyHead,
        h, ih]
      split
      · rfl
      · cases s.splitOnP isBlank <;> rfl
  rw [words, wordsBy, hSplit, List.filter_map, words, wordsBy]
  congr 1
  refine List.filter_congr fun word _ => ?_
  simp

/-! ### Small letters of ASCII -/

theorem toLower_cases (c : Char) : c.toLower = c ∨ ∃ n < 26, c = Char.ofNat (65 + n) := by
  by_cases hCapital : c.isUpper = true
  · obtain ⟨hFirst, hLast⟩ := of_decide_eq_true hCapital
    have hLow : 65 ≤ c.toNat := UInt32.le_iff_toNat_le.mp hFirst
    have hHigh : c.toNat ≤ 90 := UInt32.le_iff_toNat_le.mp hLast
    refine .inr ⟨c.toNat - 65, by omega, ?_⟩
    rw [show 65 + (c.toNat - 65) = c.toNat by omega, Char.ofNat_toNat]
  · exact .inl (Char.toLower_eq_of_not_isUpper hCapital)

theorem toLower_capital : ∀ n < 26, isBlank (Char.ofNat (65 + n)) = false ∧
    isBlank (Char.ofNat (65 + n)).toLower = false ∧ Char.ofNat (65 + n) ≠ '_' ∧
    (Char.ofNat (65 + n)).toLower ≠ '_' := by decide +kernel

theorem isBlank_toLower (c : Char) : isBlank c.toLower = isBlank c := by
  rcases toLower_cases c with h | ⟨n, hn, rfl⟩
  · rw [h]
  · rw [(toLower_capital n hn).1, (toLower_capital n hn).2.1]

theorem toLower_of_isBlank {c : Char} (h : isBlank c = true) : c.toLower = c := by
  rcases toLower_cases c with hSame | ⟨n, hn, rfl⟩
  · exact hSame
  · rw [(toLower_capital n hn).1] at h
    contradiction

theorem toLower_eq_underscore_iff {c : Char} : c.toLower = '_' ↔ c = '_' := by
  rcases toLower_cases c with h | ⟨n, hn, rfl⟩
  · rw [h]
  · exact iff_of_false (toLower_capital n hn).2.2.2 (toLower_capital n hn).2.2.1

end RobotsTxt.Text
