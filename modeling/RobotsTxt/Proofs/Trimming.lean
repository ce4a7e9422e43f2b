import Mathlib.Data.List.DropRight
import RobotsTxt.Text.Blank

/-! Trimming.  Blanks around a text make no difference to it, blanks around a character that is none
are trimmed on each side of it, and a text is trimmed if it neither starts nor ends with a blank. -/

namespace RobotsTxt.Text

/-! ### Blanks around a text -/

section Blank

variable {blanks : List Char} (h : ∀ c ∈ blanks, isBlank c = true)

include h

theorem trimStart_blank : trimStart blanks = [] := List.dropWhile_eq_nil_iff.mpr h

theorem trim_blank_append (s : List Char) : trim (blanks ++ s) = trim s := by
  rw [trim, trim, trimStart, List.dropWhile_append_of_pos h, ← trimStart]

theorem trimEnd_append_blank (s : List Char) : trimEnd (s ++ blanks) = trimEnd s := by
  have hReverse : ∀ c ∈ blanks.reverse, isBlank c = true := fun c hc => h c (List.mem_reverse.mp hc)
  rw [trimEnd, trimEnd, List.reverse_append, List.dropWhile_append_of_pos hReverse]

theorem trim_append_blank (s : List Char) : trim (s ++ blanks) = trim s := by
  rw [trim, trim, trimStart, List.dropWhile_append]
  split
  · rename_i hNone
    rw [trimStart, List.isEmpty_iff.mp hNone, ← trimStart, trimStart_blank h]
  · exact trimEnd_append_blank h _

end Blank

/-! ### Trimming around a character -/

section Stops

variable {stops : Char → Bool} {c : Char} (h : stops c = false)

include h

theorem dropWhile_append_cons (a b : List Char) :
    (a ++ c :: b).dropWhile stops = a.dropWhile stops ++ c :: b := by
  rw [List.dropWhile_append]
  split
  · rename_i hNone
    rw [List.isEmpty_iff.mp hNone, List.dropWhile_cons_of_neg (by simp [h])]
    rfl
  · rfl

theorem rdropWhile_append_cons (a b : List Char) :
    (a ++ c :: b).rdropWhile stops = a ++ c :: b.rdropWhile stops := by
  have hReverse : (a ++ c :: b).reverse = b.reverse ++ c :: a.reverse := by simp
  rw [List.rdropWhile, hReverse, dropWhile_append_cons h, List.rdropWhile]
  simp

end Stops

theorem trim_append_cons {c : Char} (h : isBlank c = false) (a b : List Char) :
    trim (a ++ c :: b) = trimStart a ++ c :: trimEnd b := by
  rw [trim, trimStart, dropWhile_append_cons h]
  exact rdropWhile_append_cons h _ b

/-! ### Trimmed text -/

/-- No blank stands at either end. -/
def Trimmed (s : List Char) : Prop :=
  (∀ c ∈ s.head?, isBlank c = false) ∧ ∀ c ∈ s.getLast?, isBlank c = false

theorem trimEnd_eq_rdropWhile (s : List Char) : trimEnd s = s.rdropWhile isBlank := rfl

theorem trimStart_eq_self {s : List Char} (h : ∀ c ∈ s.head?, isBlank c = false) :
    trimStart s = s := by
  refine List.dropWhile_eq_self_iff.mpr fun hPos => ?_
  simpa using h s[0] (by simp [List.head?_eq_getElem?, List.getElem?_eq_getElem hPos])

theorem trimEnd_eq_self {s : List Char} (h : ∀ c ∈ s.getLast?, isBlank c = false) :
    trimEnd s = s := by
  rw [trimEnd_eq_rdropWhile, List.rdropWhile_eq_self_iff]
  intro hne
  simpa using h (s.getLast hne) (by simp [List.getLast?_eq_some_getLast hne])

theorem Trimmed.trim_eq {s : List Char} (h : Trimmed s) : trim s = s := by
  rw [trim, trimStart_eq_self h.1, trimEnd_eq_self h.2]

theorem Trimmed.of_append {c : Char} {s : List Char} (before : List Char)
    (h : Trimmed (before ++ c :: s)) (hc : isBlank c = false) : Trimmed (c :: s) := by
  refine ⟨fun d hd => ?_, fun d hd => h.2 d ?_⟩
  · obtain rfl : c = d := by simpa using hd
    exact hc
  · rw [List.getLast?_append_cons]
    exact hd

theorem exists_trim_append (s : List Char) : ∃ rest, trim s ++ rest = trimStart s :=
  List.rdropWhile_prefix isBlank (trimStart s)

theorem head?_of_trimEnd {c : Char} {s : List Char} (h : (trimEnd s).head? = some c) :
    s.head? = some c := by
  obtain ⟨rest, hRest⟩ := List.rdropWhile_prefix isBlank s
  rw [← hRest, ← trimEnd_eq_rdropWhile, List.head?_append, h, Option.some_or]

theorem isBlank_of_getLast?_trimEnd {c : Char} {s : List Char}
    (h : (trimEnd s).getLast? = some c) : isBlank c = false := by
  have hne : trimEnd s ≠ [] := by
    rintro hNil
    simp [hNil] at h
  have hLast := List.rdropWhile_last_not isBlank s hne
  rw [List.getLast?_eq_some_getLast hne] at h
  obtain rfl := Option.some.inj h
  exact Bool.not_eq_true _ ▸ hLast

theorem trimmed_trim (s : List Char) : Trimmed (trim s) := by
  refine ⟨fun c hc => ?_, fun c => isBlank_of_getLast?_trimEnd⟩
  have hNot := List.head?_dropWhile_not isBlank s
  rw [← trimStart, head?_of_trimEnd hc] at hNot
  exact hNot

theorem trimmed_of_trim_eq {s : List Char} (h : trim s = s) : Trimmed s := by
  rw [← h]
  exact trimmed_trim s

theorem mem_of_mem_trim {c : Char} {s : List Char} (h : c ∈ trim s) : c ∈ s := by
  obtain ⟨rest, hRest⟩ := exists_trim_append s
  refine (List.dropWhile_sublist isBlank).mem (?_ : c ∈ trimStart s)
  exact hRest ▸ List.mem_append_left rest h

/-- Trimming takes nothing but blanks away. -/
theorem mem_trim {c : Char} {s : List Char} (hc : isBlank c = false) (h : c ∈ s) : c ∈ trim s := by
  obtain ⟨a, b, rfl⟩ := List.append_of_mem h
  rw [trim_append_cons hc]
  exact List.mem_append_right _ (List.mem_cons_self ..)

end RobotsTxt.Text
