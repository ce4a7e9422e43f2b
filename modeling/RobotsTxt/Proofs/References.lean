import Mathlib.Data.List.TakeDrop
import Mathlib.Data.List.TakeWhile
import RobotsTxt.Proofs.Trimming
import RobotsTxt.Url.Reference

/-! How a reference falls apart: at the first of each mark, and without what does not count around
it. -/

namespace RobotsTxt.Url.Reference

theorem cut_eq (mark : Char) (s : List Char) :
    cut mark s = (s.takeWhile (· ≠ mark), (s.dropWhile (· ≠ mark)).tail?) := by
  rw [cut, List.span_eq_takeWhile_dropWhile]
  cases s.dropWhile fun c => decide (c ≠ mark) <;> rfl

theorem not_mem_cut (mark : Char) (s : List Char) : mark ∉ (cut mark s).1 := by
  rw [cut_eq]
  intro h
  simpa using List.mem_takeWhile_imp h

/-- A text is what it falls apart into, with the mark between the parts. -/
theorem append_cut (mark : Char) (s : List Char) :
    (cut mark s).1 ++ ((cut mark s).2.map (mark :: ·)).getD [] = s := by
  rw [cut_eq]
  induction s with
  | nil => rfl
  | cons c s ih =>
    by_cases h : c = mark
    · simp [h]
    · simpa [h] using ih

theorem cut_eq_self {mark : Char} {s : List Char} (h : (cut mark s).2 = none) :
    (cut mark s).1 = s := by
  simpa [h] using append_cut mark s

theorem eq_append_of_cut {mark : Char} {s after : List Char} (h : (cut mark s).2 = some after) :
    s = (cut mark s).1 ++ mark :: after := by
  simpa [h] using (append_cut mark s).symm

theorem mem_of_mem_cut {mark c : Char} {s : List Char} (h : c ∈ (cut mark s).1) : c ∈ s := by
  rw [← append_cut mark s]
  exact List.mem_append_left _ h

theorem mem_of_mem_query {mark c : Char} {s after : List Char} (hAfter : (cut mark s).2 = some after)
    (h : c ∈ after) : c ∈ s := by
  rw [eq_append_of_cut hAfter]
  exact List.mem_append_right _ (List.mem_cons_of_mem _ h)

theorem forall_ne_of_not_mem {mark : Char} {s : List Char} (h : mark ∉ s) :
    ∀ c ∈ s, decide (c ≠ mark) = true := by
  intro c hc
  rw [decide_eq_true_eq]
  rintro rfl
  exact h hc

theorem cut_append {mark : Char} {before : List Char} (h : mark ∉ before) (s : List Char) :
    cut mark (before ++ s) = (before ++ (cut mark s).1, (cut mark s).2) := by
  rw [cut_eq, cut_eq, List.takeWhile_append_of_pos (forall_ne_of_not_mem h),
    List.dropWhile_append_of_pos (forall_ne_of_not_mem h)]

theorem cut_append_cons {mark : Char} {before : List Char} (h : mark ∉ before)
    (after : List Char) : cut mark (before ++ mark :: after) = (before, some after) := by
  have hMark : cut mark (mark :: after) = ([], some after) := by simp [cut_eq]
  rw [cut_append h, hMark, List.append_nil]

theorem cut_of_not_mem {mark : Char} {s : List Char} (h : mark ∉ s) : cut mark s = (s, none) := by
  rw [cut_eq, List.takeWhile_eq_self_iff.mpr (forall_ne_of_not_mem h),
    List.dropWhile_eq_nil_iff.mpr (forall_ne_of_not_mem h)]
  rfl

theorem counted_eq_self {s : List Char} (h : ∀ c ∈ s, isIgnored c = false) : counted s = s :=
  List.filter_eq_self.mpr fun c hc => by simp [h c hc]

/-- What stands around a character that counts is trimmed on each side. -/
theorem trimOuter_append_cons {c : Char} (h : isOuter c = false) (a b : List Char) :
    trimOuter (a ++ c :: b) =
      a.dropWhile isOuter ++ c :: (b.reverse.dropWhile isOuter).reverse := by
  rw [trimOuter, Text.dropWhile_append_cons h]
  exact Text.rdropWhile_append_cons h _ b

theorem trimOuter_eq_dropWhile {s : List Char} (h : ∀ c ∈ s.getLast?, isOuter c = false) :
    trimOuter s = s.dropWhile isOuter := by
  rcases List.eq_nil_or_concat s with rfl | ⟨a, c, rfl⟩
  · rfl
  · have hc : isOuter c = false := h c (by simp)
    rw [List.concat_eq_append, trimOuter_append_cons hc, Text.dropWhile_append_cons hc]
    rfl

end RobotsTxt.Url.Reference
