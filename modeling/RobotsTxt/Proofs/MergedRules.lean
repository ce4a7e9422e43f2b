import Mathlib.Data.List.Sigma
import RobotsTxt.Proofs.Decision

/-! The list of rules that paths are looked up in.  An entry is a rule with its place among the
rules of the groups, as they stand in the file, so a rule that is written twice makes two entries.
The list in precedence order is the one list that has every entry once, the more specific ones
first, of equally specific ones those that allow first, and of those that are alike in both the
earlier one first. -/

namespace RobotsTxt

namespace Rule

/-- Entries are all those of some rules, in an order that leaves nothing open. -/
structure Merges (rules : List Rule) (entries : List (Rule × Nat)) : Prop where
  perm : entries.Perm rules.zipIdx
  sorted : entries.Pairwise fun a b =>
    b.1.pattern.specificity < a.1.pattern.specificity ∨
      a.1.pattern.specificity = b.1.pattern.specificity ∧ (b.1.allows = true → a.1.allows = true)
  stable : entries.Pairwise fun a b =>
    a.1.pattern.specificity = b.1.pattern.specificity → a.1.allows = b.1.allows → a.2 < b.2

theorem zipIdxLE_precedes_iff (a b : Rule × Nat) : List.zipIdxLE precedes a b = true ↔
    precedes a.1 b.1 = true ∧ (precedes b.1 a.1 = true → a.2 ≤ b.2) := by
  cases hab : precedes a.1 b.1 <;> cases hba : precedes b.1 a.1 <;> simp [List.zipIdxLE, hab, hba]

/-- Two rules may stand in either order exactly if they are equally specific and say the same. -/
theorem precedes_precedes_iff (a b : Rule) : precedes a b = true ∧ precedes b a = true ↔
    a.pattern.specificity = b.pattern.specificity ∧ a.allows = b.allows := by
  have hAlike : a.allows = b.allows ↔ (a.allows = true ↔ b.allows = true) := Bool.eq_iff_iff
  rw [precedes_iff, precedes_iff, hAlike]
  constructor
  · rintro ⟨hab | ⟨hSame, hab⟩, hba⟩
    · omega
    · rcases hba with hba | ⟨-, hba⟩
      · omega
      · exact ⟨hSame, hba, hab⟩
  · rintro ⟨hSame, hAllows⟩
    exact ⟨.inr ⟨hSame, hAllows.mpr⟩, .inr ⟨hSame.symm, hAllows.mp⟩⟩

/-- Entries of the same place are the same. -/
theorem eq_of_place_eq {rules : List Rule} {a b : Rule × Nat} (ha : a ∈ rules.zipIdx)
    (hb : b ∈ rules.zipIdx) (hPlace : a.2 = b.2) : a = b := by
  rw [List.mem_zipIdx_iff_getElem?] at ha hb
  rw [hPlace, hb] at ha
  exact Prod.ext (Option.some.inj ha).symm hPlace

theorem zipIdx_pairwise_place (rules : List Rule) :
    rules.zipIdx.Pairwise fun a b => a.2 ≠ b.2 := by
  have hPlaces := List.nodup_zipIdx_map_snd rules
  rwa [List.nodup_iff_pairwise_ne, List.pairwise_map] at hPlaces

namespace Merges

variable {rules : List Rule} {entries : List (Rule × Nat)}

theorem pairwise_zipIdxLE (h : Merges rules entries) :
    entries.Pairwise (List.zipIdxLE precedes · ·) := by
  refine (h.sorted.and h.stable).imp fun {a b} ⟨hSorted, hStable⟩ => ?_
  rw [zipIdxLE_precedes_iff]
  have hHere : precedes a.1 b.1 = true := (precedes_iff _ _).mpr hSorted
  refine ⟨hHere, fun hBack => ?_⟩
  obtain ⟨hSame, hAllows⟩ := (precedes_precedes_iff _ _).mp ⟨hHere, hBack⟩
  exact Nat.le_of_lt (hStable hSame hAllows)

/-- The order of entries leaves nothing open, since no two are of the same place. -/
theorem unique {others : List (Rule × Nat)} (h : Merges rules entries)
    (hOthers : Merges rules others) : entries = others := by
  refine List.Perm.eq_of_pairwise (fun a b ha hb hab hba => ?_) h.pairwise_zipIdxLE
    hOthers.pairwise_zipIdxLE (h.perm.trans hOthers.perm.symm)
  rw [zipIdxLE_precedes_iff] at hab hba
  refine eq_of_place_eq (h.perm.mem_iff.mp ha) (hOthers.perm.mem_iff.mp hb) ?_
  exact Nat.le_antisymm (hab.2 hba.1) (hba.2 hab.1)

end Merges

/-- Sorting the entries, with their places for what the order of precedence leaves open, merges the
rules. -/
theorem merges_mergeSort (rules : List Rule) :
    Merges rules (rules.zipIdx.mergeSort (List.zipIdxLE precedes)) := by
  have hPerm := List.mergeSort_perm rules.zipIdx (List.zipIdxLE precedes)
  have hSorted := List.pairwise_mergeSort (List.zipIdxLE_trans precedes_trans)
    (List.zipIdxLE_total precedes_total) rules.zipIdx
  have hPlaces := (hPerm.pairwise_iff fun hPlace => hPlace.symm).mpr (zipIdx_pairwise_place rules)
  constructor
  · exact hPerm
  · exact hSorted.imp fun hLess => (precedes_iff _ _).mp ((zipIdxLE_precedes_iff _ _).mp hLess).1
  · refine (hSorted.and hPlaces).imp fun {a b} ⟨hLess, hPlace⟩ hSame hAllows => ?_
    have hBack := ((precedes_precedes_iff a.1 b.1).mpr ⟨hSame, hAllows⟩).2
    have hLe := ((zipIdxLE_precedes_iff a b).mp hLess).2 hBack
    omega

theorem inPrecedence_eq_iff {rules merged : List Rule} : inPrecedence rules = merged ↔
    ∃ entries, Merges rules entries ∧ entries.map Prod.fst = merged := by
  have hSort : (rules.zipIdx.mergeSort (List.zipIdxLE precedes)).map Prod.fst =
      inPrecedence rules := List.mergeSort_zipIdx
  constructor
  · rintro rfl
    exact ⟨_, merges_mergeSort rules, hSort⟩
  · rintro ⟨entries, hMerges, rfl⟩
    rw [← hSort, (merges_mergeSort rules).unique hMerges]

end Rule

namespace Settings

/-- The rules of some groups in precedence order are the merged entries of all their rules and
nothing else, and where rules decide what a crawler may fetch, they are those of the groups that it
obeys, merged so. -/
theorem access_merged (groups : List Group) :
    (∀ merged, Rule.inPrecedence (groups.flatMap Group.rules) = merged ↔
      ∃ entries, Rule.Merges (groups.flatMap Group.rules) entries ∧
        entries.map Prod.fst = merged) ∧
      ∀ (s : Settings) (names : List String) (merged : List Rule) (delay : Option Nat),
        s.access names groups = .byRules merged delay →
          ∃ entries, Rule.Merges ((s.selected names groups).flatMap Group.rules) entries ∧
            entries.map Prod.fst = merged := by
  refine ⟨fun merged => Rule.inPrecedence_eq_iff, fun s names merged delay hRules => ?_⟩
  rw [← Rule.inPrecedence_eq_iff]
  rcases s.access_cases names groups with ⟨-, hAccess⟩ | ⟨-, hAccess⟩ | ⟨-, -, hAccess⟩
  · simp [hAccess] at hRules
  · simp [hAccess] at hRules
  · rw [hAccess] at hRules
    exact (Access.byRules.inj hRules).1

end Settings

end RobotsTxt
