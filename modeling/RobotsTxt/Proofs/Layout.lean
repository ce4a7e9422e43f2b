import Mathlib.Data.List.Basic
import Mathlib.Data.Nat.Find
import RobotsTxt.RuleSet.Draft

/-! The groups of a list of directives, said of positions in the list instead of by reading it.  A
group starts at an agent if a rule stands between it and every agent before it; a position belongs
to the last group that starts at it or before it; and a group is what stands at its positions.  The
theorems say what the next position changes. -/

namespace RobotsTxt

namespace Directive

/-- The agent that a directive declares, unless it is blank. -/
def agent? : Directive → Option String
  | .userAgent value =>
    let name := Text.trim value.toList
    if name = [] then none else some (String.ofList (Text.lowercase name))
  | _ => none

/-- The rule that a directive gives.  A blank pattern allows. -/
def rule? : Directive → Option Rule
  | .rule verdict value =>
    some ⟨Pattern.ofText value, if Text.trim value.toList = [] then .allow else verdict⟩
  | _ => none

def seconds? : Directive → Option Float
  | .crawlDelay seconds => some seconds
  | _ => none

end Directive

/-- The audience that some names make: the names other than the wildcard, each where it is first
declared, and whether the wildcard is among them. -/
def Audience.ofNames (names : List String) : Audience :=
  ⟨(names.filter (· ≠ "*")).eraseDups, names.contains "*"⟩

theorem Audience.ofNames_append_singleton (names : List String) (name : String) :
    Audience.ofNames (names ++ [name]) = (Audience.ofNames names).declare name := by
  by_cases hStar : name = "*"
  · simp [ofNames, declare, hStar]
  · by_cases hMem : name ∈ names <;>
      simp [ofNames, declare, hStar, Ne.symm hStar, hMem, List.eraseDups_append, List.removeAll,
        List.eraseDups_cons]

namespace Layout

variable (ds : List Directive)

def agentAt (i : Nat) : Option String := ds[i]?.bind Directive.agent?

/-- An agent is declared before a position. -/
def Follows (n : Nat) : Prop := ∃ i < n, (agentAt ds i).isSome = true

instance (n : Nat) : Decidable (Follows ds n) :=
  inferInstanceAs (Decidable (∃ i < n, (agentAt ds i).isSome = true))

/-- The rule at a position.  It counts only if it follows an agent, like a crawl delay. -/
def ruleAt (i : Nat) : Option Rule := if Follows ds i then ds[i]?.bind Directive.rule? else none

def secondsAt (i : Nat) : Option Float :=
  if Follows ds i then ds[i]?.bind Directive.seconds? else none

/-- Between every agent before a position and the position stands a rule. -/
def Settled (n : Nat) : Prop :=
  ∀ i < n, (agentAt ds i).isSome = true → ∃ k < n, i < k ∧ (ruleAt ds k).isSome = true

instance (n : Nat) : Decidable (Settled ds n) :=
  inferInstanceAs (Decidable (∀ i < n, (agentAt ds i).isSome = true →
    ∃ k < n, i < k ∧ (ruleAt ds k).isSome = true))

/-- A group starts at a position. -/
def Opens (i : Nat) : Prop := (agentAt ds i).isSome = true ∧ Settled ds i

instance (i : Nat) : Decidable (Opens ds i) :=
  inferInstanceAs (Decidable ((agentAt ds i).isSome = true ∧ Settled ds i))

/-- How many groups start before a position. -/
def started (n : Nat) : Nat := (List.range n).countP (Opens ds ·)

/-- The group that a position belongs to, counted from 1.  The positions before all groups have 0. -/
def home (i : Nat) : Nat := started ds (i + 1)

def members (k n : Nat) : List Nat := (List.range n).filter (home ds · = k)

def audienceBefore (k n : Nat) : Audience :=
  Audience.ofNames ((members ds k n).filterMap (agentAt ds))

/-- The crawl delay at a position, for what its group declares before it. -/
def delayAt (i : Nat) : Option CrawlDelay :=
  (secondsAt ds i).map fun seconds => ⟨seconds, audienceBefore ds (home ds i) i⟩

/-- What stands at the positions of group `k` that are before `n`. -/
def groupBefore (k n : Nat) : Group where
  audience := audienceBefore ds k n
  rules := (members ds k n).filterMap (ruleAt ds)
  delays := (members ds k n).filterMap (delayAt ds)

/-- The groups of the directives, in the order in which they start. -/
def groups : List Group :=
  (List.range (started ds ds.length)).map fun k => groupBefore ds (k + 1) ds.length

variable {ds}

/-! ### The next position -/

theorem agentAt_eq {n : Nat} {d : Directive} (hd : ds[n]? = some d) :
    agentAt ds n = d.agent? := by simp [agentAt, hd]

theorem ruleAt_eq {n : Nat} {d : Directive} (hd : ds[n]? = some d) (h : Follows ds n) :
    ruleAt ds n = d.rule? := by simp [ruleAt, hd, h]

theorem secondsAt_eq {n : Nat} {d : Directive} (hd : ds[n]? = some d) (h : Follows ds n) :
    secondsAt ds n = d.seconds? := by simp [secondsAt, hd, h]

theorem follows_succ {n : Nat} :
    Follows ds (n + 1) ↔ Follows ds n ∨ (agentAt ds n).isSome = true := by
  simp only [Follows, Nat.exists_lt_succ_right]

theorem settled_succ_of_agent {n : Nat} (h : (agentAt ds n).isSome = true) :
    ¬Settled ds (n + 1) := by
  intro hSettled
  obtain ⟨k, hk, hnk, -⟩ := hSettled n (by omega) h
  omega

theorem settled_succ_of_rule {n : Nat} (h : (ruleAt ds n).isSome = true)
    (hAgent : agentAt ds n = none) : Settled ds (n + 1) := by
  intro i hi hAgentAt
  have hne : i ≠ n := by
    rintro rfl
    simp [hAgent] at hAgentAt
  exact ⟨n, by omega, by omega, h⟩

theorem settled_succ_of_none {n : Nat} (hRule : ruleAt ds n = none)
    (hAgent : agentAt ds n = none) : Settled ds (n + 1) ↔ Settled ds n := by
  simp only [Settled, Nat.forall_lt_succ_right, Nat.exists_lt_succ_right, hRule, hAgent]
  simp

theorem started_succ {n : Nat} :
    started ds (n + 1) = started ds n + if Opens ds n then 1 else 0 := by
  simp [started, List.range_succ, List.countP_singleton]

theorem started_mono {m n : Nat} (h : m ≤ n) : started ds m ≤ started ds n :=
  List.Sublist.countP_le (List.range_sublist.mpr h)

theorem follows_of_started_pos {n : Nat} (h : 0 < started ds n) : Follows ds n := by
  obtain ⟨i, hi, hOpens⟩ := List.countP_pos_iff.mp h
  exact ⟨i, List.mem_range.mp hi, (of_decide_eq_true hOpens).1⟩

theorem members_succ {k n : Nat} :
    members ds k (n + 1) = members ds k n ++ if home ds n = k then [n] else [] := by
  by_cases h : home ds n = k <;> simp [members, List.range_succ, h]

theorem members_eq_nil {k n : Nat} (h : started ds n < k) : members ds k n = [] := by
  refine List.filter_eq_nil_iff.mpr fun i hi => ?_
  have hHome : home ds i ≤ started ds n := started_mono (List.mem_range.mp hi)
  simp only [decide_eq_true_eq]
  omega

end Layout

def Group.empty : Group := ⟨Audience.empty, [], []⟩

def Group.extend (g : Group) (d : Directive) : Group where
  audience := d.agent?.elim g.audience g.audience.declare
  rules := g.rules ++ d.rule?.toList
  delays := g.delays ++ (d.seconds?.map fun seconds => ⟨seconds, g.audience⟩).toList

namespace Layout

variable {ds : List Directive}

theorem groupBefore_eq_empty {k n : Nat} (h : started ds n < k) :
    groupBefore ds k n = Group.empty := by
  simp [groupBefore, audienceBefore, members_eq_nil h, Group.empty, Audience.ofNames,
    Audience.empty]

theorem groupBefore_succ_of_ne {k n : Nat} (h : home ds n ≠ k) :
    groupBefore ds k (n + 1) = groupBefore ds k n := by
  simp [groupBefore, audienceBefore, members_succ, h]

theorem audienceBefore_succ_home {n : Nat} : audienceBefore ds (home ds n) (n + 1) =
    (agentAt ds n).elim (audienceBefore ds (home ds n) n)
      (audienceBefore ds (home ds n) n).declare := by
  rw [audienceBefore, members_succ, if_pos rfl, List.filterMap_append]
  cases hAgent : agentAt ds n with
  | none => simp [hAgent, audienceBefore]
  | some name => simp [hAgent, audienceBefore, ← Audience.ofNames_append_singleton]

/-- The group of a position has the directive there as its next line, once an agent is declared. -/
theorem groupBefore_succ_home {n : Nat} {d : Directive} (hd : ds[n]? = some d)
    (h : Follows ds (n + 1)) : groupBefore ds (home ds n) (n + 1) =
      (groupBefore ds (home ds n) n).extend d := by
  have hRule : ruleAt ds n = d.rule? := by
    rcases follows_succ.mp h with hFollows | hAgent
    · exact ruleAt_eq hd hFollows
    · rw [agentAt_eq hd] at hAgent
      cases d <;> simp_all [Directive.agent?, Directive.rule?, ruleAt]
  have hSeconds : secondsAt ds n = d.seconds? := by
    rcases follows_succ.mp h with hFollows | hAgent
    · exact secondsAt_eq hd hFollows
    · rw [agentAt_eq hd] at hAgent
      cases d <;> simp_all [Directive.agent?, Directive.seconds?, secondsAt]
  have hMembers : members ds (home ds n) (n + 1) = members ds (home ds n) n ++ [n] := by
    rw [members_succ, if_pos rfl]
  simp only [groupBefore, Group.extend, Group.mk.injEq]
  refine ⟨?_, ?_, ?_⟩
  · rw [audienceBefore_succ_home, agentAt_eq hd]
  · rw [hMembers, List.filterMap_append]
    cases hr : d.rule? <;> simp [hRule, hr]
  · rw [hMembers, List.filterMap_append]
    cases hs : d.seconds? <;> simp [delayAt, hSeconds, hs]

/-! ### Positions and groups -/

theorem home_mono {i j : Nat} (h : i ≤ j) : home ds i ≤ home ds j :=
  started_mono (Nat.succ_le_succ h)

theorem home_of_opens {n : Nat} (h : Opens ds n) : home ds n = started ds n + 1 := by
  rw [home, started_succ, if_pos h]

theorem home_of_not_opens {n : Nat} (h : ¬Opens ds n) : home ds n = started ds n := by
  rw [home, started_succ, if_neg h, Nat.add_zero]

theorem home_eq_of_not_opens {i j : Nat} (hij : i ≤ j)
    (h : ∀ l, i < l → l ≤ j → ¬Opens ds l) : home ds j = home ds i := by
  induction j, hij using Nat.le_induction with
  | base => rfl
  | succ j hij ih =>
    rw [home_of_not_opens (h (j + 1) (by omega) (by omega))]
    exact ih fun l hl hlj => h l hl (by omega)

/-- A position belongs to the group of the agent before it. -/
theorem home_eq_of_no_agent {i j : Nat} (hij : i ≤ j)
    (h : ∀ k, i < k → k ≤ j → agentAt ds k = none) : home ds j = home ds i := by
  refine home_eq_of_not_opens hij fun l hl hlj hOpens => ?_
  simpa [h l hl hlj] using hOpens.1

theorem agentAt_eq_none_of_ruleAt {k : Nat} (h : (ruleAt ds k).isSome = true) :
    agentAt ds k = none := by
  simp only [ruleAt, agentAt] at h ⊢
  split at h
  · cases hd : ds[k]? with
    | none => rfl
    | some d => cases d <;> simp_all [Directive.rule?, Directive.agent?]
  · contradiction

/-- The first agent behind a rule starts a group. -/
theorem exists_opens_of_ruleAt {j k : Nat} (hkj : k < j) (hRule : (ruleAt ds k).isSome = true)
    (hAgent : (agentAt ds j).isSome = true) : ∃ l, k < l ∧ l ≤ j ∧ Opens ds l := by
  have hSome : ∃ l, k < l ∧ (agentAt ds l).isSome = true := ⟨j, hkj, hAgent⟩
  obtain ⟨hkl, hAgentAt⟩ := Nat.find_spec hSome
  refine ⟨Nat.find hSome, hkl, Nat.find_min' hSome ⟨hkj, hAgent⟩, hAgentAt, fun i hi hi' => ?_⟩
  have hik : i ≤ k := by
    by_contra hNot
    exact Nat.find_min hSome hi ⟨by omega, hi'⟩
  have hne : i ≠ k := by
    rintro rfl
    simp [agentAt_eq_none_of_ruleAt hRule] at hi'
  exact ⟨k, hkl, by omega, hRule⟩

theorem home_eq_iff {i j : Nat} (hij : i < j) (hi : (agentAt ds i).isSome = true)
    (hj : (agentAt ds j).isSome = true) :
    home ds i = home ds j ↔ ∀ k, i < k → k < j → ruleAt ds k = none := by
  constructor
  · intro hSame k hik hkj
    by_contra hRule
    obtain ⟨l, hkl, hlj, hOpens⟩ :=
      exists_opens_of_ruleAt hkj (Option.isSome_iff_ne_none.mpr hRule) hj
    have hBefore : home ds i ≤ started ds l := started_mono (by omega)
    have hAfter : home ds l ≤ home ds j := home_mono hlj
    rw [home_of_opens hOpens] at hAfter
    omega
  · intro hNone
    refine (home_eq_of_not_opens (Nat.le_of_lt hij) fun l hil hlj hOpens => ?_).symm
    obtain ⟨k, hkl, hik, hRule⟩ := hOpens.2 i hil hi
    simp [hNone k hik (by omega)] at hRule

example : (List.range 6).map (home [.rule .allow "/", .userAgent "a", .sitemap "/s",
    .userAgent "b", .rule .disallow "/", .userAgent "c"]) = [0, 1, 1, 1, 1, 2] := by decide

theorem started_pos_of_follows {n : Nat} (h : Follows ds n) : 0 < started ds n := by
  have hSome : ∃ i, (agentAt ds i).isSome = true := ⟨h.choose, h.choose_spec.2⟩
  have hOpens : Opens ds (Nat.find hSome) :=
    ⟨Nat.find_spec hSome, fun i hi hAgent => absurd hAgent (Nat.find_min hSome hi)⟩
  have hBefore : Nat.find hSome < n := by
    obtain ⟨i, hi, hAgent⟩ := h
    exact Nat.lt_of_le_of_lt (Nat.find_min' hSome hAgent) hi
  exact List.countP_pos_iff.mpr
    ⟨Nat.find hSome, List.mem_range.mpr hBefore, decide_eq_true hOpens⟩

theorem flatMap_members_of_le {m n : Nat} (h : started ds n ≤ m) :
    (List.range m).flatMap (fun k => members ds (k + 1) n) =
      (List.range (started ds n)).flatMap fun k => members ds (k + 1) n := by
  induction m, h using Nat.le_induction with
  | base => rfl
  | succ m hm ih => simp [List.range_succ, ih, members_eq_nil (Nat.lt_succ_of_le hm)]

/-- The positions of all groups, one group after the other, are the positions in order, without
those before all groups. -/
theorem flatMap_members (n : Nat) :
    (List.range (started ds n)).flatMap (fun k => members ds (k + 1) n) =
      (List.range n).filter (home ds · ≠ 0) := by
  induction n with
  | zero => rfl
  | succ n ih =>
    have hLe : started ds n ≤ home ds n := started_mono (Nat.le_succ n)
    rw [← home, List.range_succ, List.filter_append, ← ih, ← flatMap_members_of_le hLe]
    cases hHome : home ds n with
    | zero => simp [hHome]
    | succ h =>
      have hEarlier : ∀ k ∈ List.range h, members ds (k + 1) (n + 1) = members ds (k + 1) n := by
        intro k hk
        have := List.mem_range.mp hk
        rw [members_succ, if_neg (by omega), List.append_nil]
      rw [List.range_succ, List.flatMap_append, List.flatMap_append,
        List.flatMap_congr hEarlier]
      simp [members_succ, hHome]

/-- What stands at the positions of all groups, one group after the other, is what stands at all
positions in order, if it only stands behind an agent. -/
theorem flatMap_members_filterMap {α : Type} {content : Nat → Option α} (n : Nat)
    (h : ∀ i, (content i).isSome = true → Follows ds i) :
    (List.range (started ds n)).flatMap (fun k => (members ds (k + 1) n).filterMap content) =
      (List.range n).filterMap content := by
  rw [← List.filterMap_flatMap, flatMap_members, List.filterMap_filter]
  refine List.filterMap_congr fun i _ => ?_
  cases hContent : content i with
  | none => simp
  | some a =>
    have hFollows := h i (by simp [hContent])
    have hHome : 0 < home ds i :=
      Nat.lt_of_lt_of_le (started_pos_of_follows hFollows) (started_mono (Nat.le_succ i))
    simp [Nat.ne_of_gt hHome]

theorem follows_of_ruleAt {i : Nat} (h : (ruleAt ds i).isSome = true) : Follows ds i := by
  by_contra hNot
  simp [ruleAt, hNot] at h

theorem follows_of_delayAt {i : Nat} (h : (delayAt ds i).isSome = true) : Follows ds i := by
  by_contra hNot
  simp [delayAt, secondsAt, hNot] at h

@[simp] theorem length_groups : (groups ds).length = started ds ds.length := by
  simp [groups]

theorem flatMap_rules : (groups ds).flatMap Group.rules =
    (List.range ds.length).filterMap (ruleAt ds) := by
  rw [groups, List.flatMap_map]
  exact flatMap_members_filterMap ds.length fun _ => follows_of_ruleAt

theorem flatMap_delays : (groups ds).flatMap Group.delays =
    (List.range ds.length).filterMap (delayAt ds) := by
  rw [groups, List.flatMap_map]
  exact flatMap_members_filterMap ds.length fun _ => follows_of_delayAt

end Layout

end RobotsTxt
