import RobotsTxt.Proofs.AgentMatch
import RobotsTxt.Proofs.Decision
import RobotsTxt.Proofs.Grouping

/-! Which crawl delay of a file is for a crawler.  A delay is looked for in the groups that the
crawler obeys, and there for the part of the group's audience that is declared before it.  With the
standard matcher, what that part addresses the group addresses, so the search can pass over all
groups: it finds the first delay of the file whose own part of the audience addresses the crawler. -/

namespace RobotsTxt

namespace Agent

theorem byProductToken_mono {names declared more : List String} {mode : Mode}
    (hSubset : declared ⊆ more) (h : byProductToken names declared mode = true) :
    byProductToken names more mode = true := by
  obtain ⟨name, hName, agent, hAgent, hMeets⟩ := byProductToken_iff.mp h
  exact byProductToken_iff.mpr ⟨name, hName, agent, hSubset hAgent, hMeets⟩

theorem byProductToken_eraseDups (names declared : List String) (mode : Mode) :
    byProductToken names declared.eraseDups mode = byProductToken names declared mode := by
  rw [Bool.eq_iff_iff]
  constructor
  · exact byProductToken_mono fun _ => List.mem_eraseDups.mp
  · exact byProductToken_mono fun _ => List.mem_eraseDups.mpr

end Agent

namespace Settings

variable {s : Settings} {names : List String} {groups : List Group}

/-- A crawl delay that the group of it is not obeyed for is not for the crawler. -/
theorem isObeyed_of_covers (hMatcher : s.matcher = Agent.byProductToken) {g : Group}
    (hg : g ∈ groups) {d : CrawlDelay} (hAgents : d.audience.agents ⊆ g.audience.agents)
    (hWildcard : d.audience.wildcard = true → g.audience.wildcard = true)
    (h : s.covers names groups d = true) : s.isObeyed names groups g = true := by
  rw [isObeyed_iff hg]
  rcases covers_iff.mp h with ⟨hUnnamed, hStar⟩ | ⟨hNamed, hMatch⟩
  · exact ⟨hg, .inr ⟨hUnnamed, hWildcard hStar⟩⟩
  · rw [hMatcher] at hMatch
    have hAll := Agent.byProductToken_mono hAgents hMatch
    obtain ⟨name, hName, agent, hAgent, -⟩ := Agent.byProductToken_iff.mp hAll
    refine ⟨hg, .inl ⟨List.ne_nil_of_mem hName, List.ne_nil_of_mem hAgent, ?_⟩⟩
    rwa [hMatcher]

/-- A search for something that stands only where a test holds may skip the test. -/
theorem find?_flatMap_filter {α β : Type} {f : α → List β} {p : α → Bool} {q : β → Bool}
    {l : List α} (h : ∀ a ∈ l, ∀ b ∈ f a, q b = true → p a = true) :
    ((l.filter p).flatMap f).find? q = (l.flatMap f).find? q := by
  induction l with
  | nil => rfl
  | cons a l ih =>
    obtain ⟨hHead, hTail⟩ := List.forall_mem_cons.mp h
    rw [List.flatMap_cons, List.find?_append, ← ih hTail]
    cases hTest : p a with
    | true => rw [List.filter_cons_of_pos hTest, List.flatMap_cons, List.find?_append]
    | false =>
      have hNone : (f a).find? q = none := by
        refine List.find?_eq_none.mpr fun b hb hFound => ?_
        simp [hHead b hb hFound] at hTest
      rw [List.filter_cons_of_neg (by simp [hTest]), hNone, Option.none_or]

/-- The first crawl delay for the crawler can be looked for in all groups. -/
theorem crawlDelay_eq_find? (hMatcher : s.matcher = Agent.byProductToken)
    (hAudience : ∀ g ∈ groups, ∀ d ∈ g.delays, d.audience.agents ⊆ g.audience.agents ∧
      (d.audience.wildcard = true → g.audience.wildcard = true)) :
    s.crawlDelay names groups =
      ((groups.flatMap Group.delays).find? (s.covers names groups)).map CrawlDelay.milliseconds := by
  rw [crawlDelay, selected_eq_filter, find?_flatMap_filter fun g hg d hd hCovers => ?_]
  obtain ⟨hAgents, hWildcard⟩ := hAudience g hg d hd
  exact isObeyed_of_covers hMatcher hg hAgents hWildcard hCovers

end Settings

namespace Layout

variable {ds : List Directive}

theorem mem_members {i k n : Nat} : i ∈ members ds k n ↔ i < n ∧ home ds i = k := by
  simp [members]

theorem audienceBefore_mono {k m n : Nat} (h : m ≤ n) :
    (audienceBefore ds k m).agents ⊆ (audienceBefore ds k n).agents ∧
      ((audienceBefore ds k m).wildcard = true → (audienceBefore ds k n).wildcard = true) := by
  have hMembers : members ds k m ⊆ members ds k n := by
    intro i hi
    obtain ⟨him, hHome⟩ := mem_members.mp hi
    exact mem_members.mpr ⟨by omega, hHome⟩
  have hNames := List.filterMap_subset (agentAt ds) hMembers
  refine ⟨fun agent hAgent => ?_, fun hStar => ?_⟩
  · simp only [audienceBefore, Audience.ofNames, List.mem_eraseDups, List.mem_filter] at hAgent ⊢
    exact ⟨hNames hAgent.1, hAgent.2⟩
  · simp only [audienceBefore, Audience.ofNames, List.contains_iff_mem] at hStar ⊢
    exact hNames hStar

/-- A crawl delay is for a part of the audience of its group. -/
theorem audience_of_mem_delays {g : Group} (hg : g ∈ groups ds) {d : CrawlDelay}
    (hd : d ∈ g.delays) : d.audience.agents ⊆ g.audience.agents ∧
      (d.audience.wildcard = true → g.audience.wildcard = true) := by
  obtain ⟨k, -, rfl⟩ := List.mem_map.mp hg
  obtain ⟨i, hi, hDelay⟩ := List.mem_filterMap.mp hd
  obtain ⟨hLess, hHome⟩ := mem_members.mp hi
  obtain ⟨seconds, -, rfl⟩ := Option.map_eq_some_iff.mp hDelay
  rw [hHome]
  exact audienceBefore_mono (Nat.le_of_lt hLess)

variable (ds)

/-- The agents that a group declares before a position in it, each as often as it is declared. -/
def declaredBefore (i : Nat) : List String := (members ds (home ds i) i).filterMap (agentAt ds)

/-- A crawl delay at a position is for a crawler: if the agents of some group address it, those
declared before the position do, and otherwise the wildcard is declared before the position. -/
def IsFor (mode : Agent.Mode) (names : List String) (i : Nat) : Prop :=
  if ∃ g ∈ groups ds, Agent.byProductToken names g.audience.agents mode = true then
    Agent.byProductToken names ((declaredBefore ds i).filter (· ≠ "*")) mode = true
  else "*" ∈ declaredBefore ds i

instance (mode : Agent.Mode) (names : List String) (i : Nat) : Decidable (IsFor ds mode names i) :=
  inferInstanceAs (Decidable (if ∃ g ∈ groups ds, _ then _ else _))

variable {ds} {s : Settings} {names : List String}

/-- The standard matcher addresses no crawler for a group without agents or names. -/
theorem unnamed_iff (hMatcher : s.matcher = Agent.byProductToken) {groups : List Group} :
    s.Unnamed names groups ↔
      ¬∃ g ∈ groups, Agent.byProductToken names g.audience.agents s.mode = true := by
  simp only [Settings.Unnamed, Settings.Names, hMatcher, not_exists, not_and]
  refine forall₂_congr fun g _ => ⟨fun h hMatch => ?_, fun h _ _ => h⟩
  obtain ⟨name, hName, agent, hAgent, -⟩ := Agent.byProductToken_iff.mp hMatch
  exact h (List.ne_nil_of_mem hName) (List.ne_nil_of_mem hAgent) hMatch

theorem covers_delayAt (hMatcher : s.matcher = Agent.byProductToken) {i : Nat} {d : CrawlDelay}
    (hd : delayAt ds i = some d) :
    s.covers names (groups ds) d = true ↔ IsFor ds s.mode names i := by
  obtain ⟨seconds, -, rfl⟩ := Option.map_eq_some_iff.mp hd
  have hAgents : Agent.byProductToken names (audienceBefore ds (home ds i) i).agents s.mode =
      Agent.byProductToken names ((declaredBefore ds i).filter (· ≠ "*")) s.mode :=
    Agent.byProductToken_eraseDups ..
  have hStar : (audienceBefore ds (home ds i) i).wildcard = true ↔ "*" ∈ declaredBefore ds i :=
    List.contains_iff_mem
  rw [Settings.covers_iff, Settings.InScope, IsFor, unnamed_iff hMatcher, not_not, hMatcher, hAgents,
    hStar]
  split
  · rename_i hNamed
    simp [hNamed]
  · rename_i hUnnamed
    simp [hUnnamed]

/-! ### The first position -/

theorem find?_filterMap_range {α : Type} {content : Nat → Option α} {p : α → Bool} {n : Nat}
    {a : α} : ((List.range n).filterMap content).find? p = some a ↔ ∃ i < n, content i = some a ∧
      p a = true ∧ ∀ j < i, ∀ b, content j = some b → ¬p b = true := by
  simp only [List.find?_filterMap, Option.bind_eq_some_iff, List.find?_range_eq_some,
    List.mem_range, Option.any_eq_true, Bool.not_eq_true', Option.any_eq_false]
  refine exists_congr fun i => ⟨?_, ?_⟩
  · rintro ⟨⟨⟨b, hb, hTest⟩, hLess, hFirst⟩, ha⟩
    obtain rfl : b = a := Option.some.inj (hb.symm.trans ha)
    exact ⟨hLess, ha, hTest, fun j hj b hb => by simp [hFirst j hj b hb]⟩
  · rintro ⟨hLess, ha, hTest, hFirst⟩
    exact ⟨⟨⟨a, ha, hTest⟩, hLess, fun j hj b hb => by simpa using hFirst j hj b hb⟩, ha⟩

theorem lt_length_of_delayAt {i : Nat} (h : (delayAt ds i).isSome = true) : i < ds.length := by
  by_contra hNot
  have hEnd : ds[i]? = none := List.getElem?_eq_none (by omega)
  simp [delayAt, secondsAt, hEnd] at h

/-- The crawl delay at a position is the first in the file for a crawler. -/
structure FirstFor (ds : List Directive) (mode : Agent.Mode) (names : List String) (i : Nat)
    (d : CrawlDelay) : Prop where
  here : delayAt ds i = some d
  isFor : IsFor ds mode names i
  first : ∀ j < i, (delayAt ds j).isSome = true → ¬IsFor ds mode names j

theorem crawlDelay_eq_some_iff (hMatcher : s.matcher = Agent.byProductToken) {ms : Nat} :
    s.crawlDelay names (groups ds) = some ms ↔
      ∃ i d, FirstFor ds s.mode names i d ∧ d.milliseconds = ms := by
  rw [Settings.crawlDelay_eq_find? hMatcher fun g hg d => audience_of_mem_delays hg, flatMap_delays,
    Option.map_eq_some_iff]
  simp only [find?_filterMap_range]
  constructor
  · rintro ⟨d, ⟨i, -, hd, hCovers, hFirst⟩, hMs⟩
    refine ⟨i, d, ⟨hd, (covers_delayAt hMatcher hd).mp hCovers, fun j hj hSome hFor => ?_⟩, hMs⟩
    obtain ⟨e, he⟩ := Option.isSome_iff_exists.mp hSome
    exact hFirst j hj e he ((covers_delayAt hMatcher he).mpr hFor)
  · rintro ⟨i, d, ⟨hd, hFor, hFirst⟩, hMs⟩
    have hSome : (delayAt ds i).isSome = true := by simp [hd]
    refine ⟨d, ⟨i, lt_length_of_delayAt hSome, hd, (covers_delayAt hMatcher hd).mpr hFor,
      fun j hj e he hCovers => ?_⟩, hMs⟩
    exact hFirst j hj (by simp [he]) ((covers_delayAt hMatcher he).mp hCovers)

theorem crawlDelay_eq_none_iff (hMatcher : s.matcher = Agent.byProductToken) :
    s.crawlDelay names (groups ds) = none ↔
      ∀ i, (delayAt ds i).isSome = true → ¬IsFor ds s.mode names i := by
  rw [Settings.crawlDelay_eq_find? hMatcher fun g hg d => audience_of_mem_delays hg, flatMap_delays,
    Option.map_eq_none_iff, List.find?_eq_none]
  simp only [List.mem_filterMap, List.mem_range]
  constructor
  · intro hNone i hSome hFor
    obtain ⟨d, hd⟩ := Option.isSome_iff_exists.mp hSome
    exact hNone d ⟨i, lt_length_of_delayAt hSome, hd⟩ ((covers_delayAt hMatcher hd).mpr hFor)
  · rintro hNot d ⟨i, -, hd⟩ hCovers
    exact hNot i (by simp [hd]) ((covers_delayAt hMatcher hd).mp hCovers)

end Layout

namespace Settings

open Layout (delayAt IsFor FirstFor)

/-- Without a limit, the delay of a policy is the crawler's. -/
theorem policy_crawlDelay {s : Settings} (hMax : s.maxCrawlDelay = none) (names : List String)
    (rules : RuleSet) : (s.policy names rules).crawlDelay = s.crawlDelay names rules.groups := by
  simp [policy_crawlDelay_eq, refuses_of_unlimited hMax]

/-- With the standard matcher and no limit, a policy has the first crawl delay of the file that is
for the crawler, and none if no delay is for it. -/
theorem evaluate_crawlDelay [Domains] {s : Settings} (hMatcher : s.matcher = Agent.byProductToken)
    (hMax : s.maxCrawlDelay = none) {given ready : List String}
    (hNames : Agent.prepare s.mode given = .ok ready) (base : Option Url) (ds : List Directive) :
    ∃ policy, s.evaluate given (RuleSet.ofDirectives base ds) = .ok policy ∧
      (∀ ms, policy.crawlDelay = some ms ↔
        ∃ i d, FirstFor ds s.mode ready i d ∧ d.milliseconds = ms) ∧
      (policy.crawlDelay = none ↔
        ∀ i, (delayAt ds i).isSome = true → ¬IsFor ds s.mode ready i) := by
  refine ⟨_, evaluate_of_prepare hNames _, fun ms => ?_, ?_⟩
  · rw [policy_crawlDelay hMax, Layout.ofDirectives_groups]
    exact Layout.crawlDelay_eq_some_iff hMatcher
  · rw [policy_crawlDelay hMax, Layout.ofDirectives_groups]
    exact Layout.crawlDelay_eq_none_iff hMatcher

/-- A file with a delay for everyone and two in the header of a group, between its agents. -/
def threeDelays : List Directive :=
  [.userAgent "*", .crawlDelay 5, .rule .disallow "/x", .userAgent "a", .crawlDelay 1,
    .userAgent "BotB", .crawlDelay 2, .rule .allow "/"]

/-- The second agent of the group has the two seconds behind it, not the one before. -/
theorem evaluate_crawlDelay_between : Agent.prepare .exact ["botb"] = .ok ["botb"] ∧
    ∃ policy, { standard with maxCrawlDelay := none }.evaluate ["botb"]
        (RuleSet.ofDirectives none threeDelays) = .ok policy ∧
      policy.crawlDelay = some 2000 := by
  have hNames : Agent.prepare .exact ["botb"] = .ok ["botb"] := by decide
  obtain ⟨policy, hEvaluate, hDelay, -⟩ :=
    evaluate_crawlDelay (s := { standard with maxCrawlDelay := none }) rfl rfl hNames none
      threeDelays
  have hMilliseconds : CrawlDelay.milliseconds ⟨2, ⟨["a", "botb"], false⟩⟩ = 2000 := by
    decide +kernel
  refine ⟨hNames, policy, hEvaluate, (hDelay _).mpr ⟨6, _, ⟨?_, ?_, ?_⟩, hMilliseconds⟩⟩
  · have hFollows : Layout.Follows threeDelays 6 := by decide +kernel
    have hAudience : Layout.audienceBefore threeDelays (Layout.home threeDelays 6) 6 =
        ⟨["a", "botb"], false⟩ := by decide +kernel
    rw [delayAt, Layout.secondsAt_eq (d := .crawlDelay 2) rfl hFollows, hAudience]
    rfl
  · decide +kernel
  · decide +kernel

end Settings

end RobotsTxt
