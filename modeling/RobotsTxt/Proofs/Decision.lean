import Mathlib.Data.List.Forall2
import RobotsTxt.Proofs.Precedence
import RobotsTxt.Proofs.Selection
import RobotsTxt.RuleSet.Parse

/-! What a crawler may fetch.  The answer of an evaluated policy is read off the groups that the
crawler obeys: none of them, a crawl delay that is as good as a refusal, or the most specific of
their rules that match.  The rules of all other groups play no part. -/

namespace RobotsTxt.Settings

variable (s : Settings) (names : List String) (groups : List Group)

/-- The groups permit a crawler to fetch a target.  The crawl delays are whole milliseconds, so a
limit within a millisecond counts as its end. -/
def Permits [Domains] (target : String) : Prop :=
  (∀ g, ¬s.Obeys names groups g) ∨
    ¬s.Refused names groups ∧
      (Target.pathAndQuery target = "/robots.txt" ∨
        Rule.Allowed (Percent.normalize (Target.pathAndQuery target).toList)
          fun r => ∃ g, s.Obeys names groups g ∧ r ∈ g.rules)

/-- The groups are those of `others` up to the rules of groups that the crawler does not obey. -/
def SameObeyed (others : List Group) : Prop :=
  List.Forall₂ (fun g h => h.audience = g.audience ∧ h.delays = g.delays ∧
    (s.Obeys names groups g → h.rules = g.rules)) groups others

variable {s names groups}

theorem selected_isEmpty_iff :
    (s.selected names groups).isEmpty = true ↔ ∀ g, ¬s.Obeys names groups g := by
  simp only [List.isEmpty_iff, List.eq_nil_iff_forall_not_mem, mem_selected]

theorem mem_selected_rules {r : Rule} :
    r ∈ (s.selected names groups).flatMap Group.rules ↔
      ∃ g, s.Obeys names groups g ∧ r ∈ g.rules := by
  simp only [List.mem_flatMap, mem_selected]

theorem Refused.exists_obeys (h : s.Refused names groups) : ∃ g, s.Obeys names groups g := by
  obtain ⟨-, -, -, ⟨-, g, -, -, -, -, -, hObeys, -⟩, -⟩ := h
  exact ⟨g, hObeys⟩

/-- Groups are read in one of three ways: none of them is obeyed, the crawl delay is as good as a
refusal, or the rules of those that are obeyed decide. -/
theorem access_cases (s : Settings) (names : List String) (groups : List Group) :
    (∀ g, ¬s.Obeys names groups g) ∧ s.access names groups = .all ∨
    s.Refused names groups ∧ s.access names groups = .none ∨
    (∃ g, s.Obeys names groups g) ∧ ¬s.Refused names groups ∧ s.access names groups =
      .byRules (Rule.inPrecedence ((s.selected names groups).flatMap Group.rules))
        (s.crawlDelay names groups) := by
  unfold access
  by_cases hEmpty : (s.selected names groups).isEmpty = true
  · exact .inl ⟨selected_isEmpty_iff.mp hEmpty, if_pos hEmpty⟩
  · have hSome : ∃ g, s.Obeys names groups g := by
      simpa using mt selected_isEmpty_iff.mpr hEmpty
    by_cases hRefused : s.refuses (s.crawlDelay names groups) = true
    · exact .inr (.inl ⟨refuses_iff.mp hRefused, (if_neg hEmpty).trans (if_pos hRefused)⟩)
    · exact .inr (.inr ⟨hSome, mt refuses_iff.mpr hRefused,
        (if_neg hEmpty).trans (if_neg hRefused)⟩)

/-- The policy of prepared names permits what the groups permit. -/
theorem policy_allows_iff [Domains] (rules : RuleSet) (target : String) :
    (s.policy names rules).allows target = true ↔ s.Permits names rules.groups target := by
  unfold Permits policy Policy.allows
  rcases s.access_cases names rules.groups with
    ⟨hNone, hAccess⟩ | ⟨hRefused, hAccess⟩ | ⟨hSome, hRefused, hAccess⟩
  · simp only [hAccess]
    exact iff_of_true trivial (.inl hNone)
  · obtain ⟨g, hObeys⟩ := hRefused.exists_obeys
    simp only [hAccess]
    refine iff_of_false (by simp) ?_
    rintro (hNone | ⟨hNot, -⟩)
    · exact hNone g hObeys
    · exact hNot hRefused
  · have hNone : ¬∀ g, ¬s.Obeys names rules.groups g := by simpa using hSome
    simp only [hAccess, hNone, false_or, hRefused, not_false_eq_true, true_and, Bool.or_eq_true,
      decide_eq_true_eq, Policy.allowsPath_inPrecedence, mem_selected_rules]

/-- Without a limit no crawl delay is as good as a refusal. -/
theorem refuses_of_unlimited (hMax : s.maxCrawlDelay = none) (delay : Option Nat) :
    s.refuses delay = false := by
  cases delay <;> simp [refuses, hMax]

theorem access_of_unlimited (hMax : s.maxCrawlDelay = none) : s.access names groups =
    if (s.selected names groups).isEmpty then .all
    else .byRules (Rule.inPrecedence ((s.selected names groups).flatMap Group.rules))
      (s.crawlDelay names groups) := by
  simp [access, refuses_of_unlimited hMax]

/-- A policy has the delay of the crawler, unless that is as good as a refusal. -/
theorem policy_crawlDelay_eq (names : List String) (rules : RuleSet) :
    (s.policy names rules).crawlDelay = if s.refuses (s.crawlDelay names rules.groups) then none
      else s.crawlDelay names rules.groups := by
  rw [policy, Policy.crawlDelay, access]
  by_cases hEmpty : s.selected names rules.groups = []
  · simp [hEmpty, crawlDelay]
  · by_cases hRefused : s.refuses (s.crawlDelay names rules.groups) = true <;>
      simp [hEmpty, hRefused]

theorem evaluate_of_prepare {given ready : List String}
    (hNames : Agent.prepare s.mode given = .ok ready) (rules : RuleSet) :
    s.evaluate given rules = .ok (s.policy ready rules) := by
  rw [evaluate, hNames]
  rfl

/-! ### Groups with the same audiences -/

theorem byWildcard_congr {others : List Group}
    (h : List.Forall₂ (fun g h => h.audience = g.audience) groups others) :
    s.byWildcard names others = s.byWildcard names groups := by
  rw [Bool.eq_iff_iff, byWildcard_iff, byWildcard_iff]
  induction h with
  | nil => rfl
  | cons hHead _ ih =>
    simp only [Unnamed, List.forall_mem_cons, Names, hHead] at ih ⊢
    rw [ih]

theorem isObeyed_congr {others : List Group} {g h : Group}
    (hWildcard : s.byWildcard names others = s.byWildcard names groups)
    (hAudience : h.audience = g.audience) :
    s.isObeyed names others h = s.isObeyed names groups g := by
  simp only [isObeyed, addresses, hWildcard, hAudience]

theorem map_filter_congr {α : Type} {f : Group → α} {p q : Group → Bool} {others : List Group}
    (h : List.Forall₂ (fun g h => q h = p g ∧ (p g = true → f h = f g)) groups others) :
    (others.filter q).map f = (groups.filter p).map f := by
  induction h with
  | nil => rfl
  | @cons g h _ _ hHead _ ih =>
    obtain ⟨hTest, hSame⟩ := hHead
    by_cases hp : p g = true
    · rw [List.filter_cons_of_pos (hTest.trans hp), List.filter_cons_of_pos hp, List.map_cons,
        List.map_cons, hSame hp, ih]
    · rw [List.filter_cons_of_neg (hTest ▸ hp), List.filter_cons_of_neg hp, ih]

/-- Groups with the same audiences are obeyed alike. -/
theorem map_selected_congr {α : Type} {f : Group → α} {others : List Group}
    (h : List.Forall₂ (fun g h => h.audience = g.audience ∧ (s.Obeys names groups g → f h = f g))
      groups others) :
    (s.selected names others).map f = (s.selected names groups).map f := by
  rw [selected_eq_filter, selected_eq_filter]
  have hWildcard : s.byWildcard names others = s.byWildcard names groups :=
    byWildcard_congr (h.imp fun _ _ hSame => hSame.1)
  have hMem := (List.forall₂_and_left groups others).mpr ⟨fun _ hg => hg, h⟩
  refine map_filter_congr (hMem.imp fun g other ⟨hg, hAudience, hSame⟩ => ⟨?_, fun hTest => ?_⟩)
  · exact isObeyed_congr hWildcard hAudience
  · exact hSame ((isObeyed_iff hg).mp hTest)

theorem isEmpty_selected_congr {others : List Group}
    (h : List.Forall₂ (fun g h => h.audience = g.audience) groups others) :
    (s.selected names others).isEmpty = (s.selected names groups).isEmpty := by
  have hCount : (s.selected names others).map (fun _ => ()) =
      (s.selected names groups).map fun _ => () :=
    map_selected_congr (h.imp fun _ _ hSame => ⟨hSame, fun _ => rfl⟩)
  rw [← List.isEmpty_map, hCount, List.isEmpty_map]

/-- The crawl delay depends on the audiences of the groups and on the delays of those obeyed. -/
theorem crawlDelay_congr {others : List Group}
    (h : List.Forall₂ (fun g h => h.audience = g.audience ∧
      (s.Obeys names groups g → h.delays = g.delays)) groups others) :
    s.crawlDelay names others = s.crawlDelay names groups := by
  have hDelays : (s.selected names others).flatMap Group.delays =
      (s.selected names groups).flatMap Group.delays := by
    simpa [List.flatMap_map] using congrArg (List.flatMap id) (map_selected_congr h)
  have hCovers : s.covers names others = s.covers names groups := by
    funext d
    simp only [covers, byWildcard_congr (h.imp fun _ _ hSame => hSame.1)]
  rw [crawlDelay, crawlDelay, hDelays, hCovers]

/-- The access to a host does not depend on the rules of groups that the crawler does not obey. -/
theorem SameObeyed.access {others : List Group} (h : s.SameObeyed names groups others) :
    s.access names others = s.access names groups := by
  have hEmpty : (s.selected names others).isEmpty = (s.selected names groups).isEmpty :=
    isEmpty_selected_congr (h.imp fun _ _ hSame => hSame.1)
  have hDelay : s.crawlDelay names others = s.crawlDelay names groups :=
    crawlDelay_congr (h.imp fun _ _ hSame => ⟨hSame.1, fun _ => hSame.2.1⟩)
  have hRules : (s.selected names others).flatMap Group.rules =
      (s.selected names groups).flatMap Group.rules := by
    simpa [List.flatMap_map] using congrArg (List.flatMap id)
      (map_selected_congr (h.imp fun _ _ hSame => ⟨hSame.1, hSame.2.2⟩))
  unfold Settings.access
  dsimp only
  rw [hEmpty, hDelay, hRules]

/-- Evaluation of a rule set for valid names gives a policy that allows exactly what the groups
permit, and the same policy whatever the rules of the groups that the crawler does not obey. -/
theorem evaluate_permits [Domains] {given ready : List String} (rules : RuleSet)
    (hNames : Agent.prepare s.mode given = .ok ready) :
    ∃ policy, s.evaluate given rules = .ok policy ∧
      (∀ target, policy.allows target = true ↔ s.Permits ready rules.groups target) ∧
      ∀ others : RuleSet, s.SameObeyed ready rules.groups others.groups →
        ∃ other, s.evaluate given others = .ok other ∧
          ∀ target, other.allows target = policy.allows target := by
  have hEvaluate : ∀ rules, s.evaluate given rules = .ok (s.policy ready rules) := fun rules => by
    rw [evaluate, hNames]
    rfl
  refine ⟨s.policy ready rules, hEvaluate rules, policy_allows_iff rules, fun others hSame => ?_⟩
  refine ⟨s.policy ready others, hEvaluate others, fun target => ?_⟩
  simp only [Policy.allows, policy, hSame.access]

/-- A file with a group for one crawler and a group for everyone else. -/
def examplebotRules : RuleSet :=
  RuleSet.ofDirectives none [.userAgent "ExampleBot", .rule .disallow "/a", .rule .allow "/a*b$",
    .userAgent "*", .rule .disallow "/"]

theorem evaluate_permits_examplebot :
    Agent.prepare .exact [" examplebot "] = .ok ["examplebot"] ∧
      ∃ policy, standard.evaluate [" examplebot "] examplebotRules = .ok policy ∧
        ∀ target, policy.allows target = true ↔
          standard.Permits ["examplebot"] examplebotRules.groups target := by
  have hNames : Agent.prepare .exact [" examplebot "] = .ok ["examplebot"] := by decide
  obtain ⟨policy, hEvaluate, hPermits, -⟩ :=
    evaluate_permits (s := standard) examplebotRules hNames
  exact ⟨hNames, policy, hEvaluate, hPermits⟩

end RobotsTxt.Settings
