import Mathlib.Data.List.Find
import RobotsTxt.Proofs.Decision
import RobotsTxt.Proofs.Sections
import RobotsTxt.Proofs.SmallLetters

/-! What a matcher is asked.  Evaluation asks it about the agents of the groups, unless a group or the
crawler has none, and about the agents declared before the delays of a group that names the crawler.
The agents declared before a delay may be none at all, so matchers that differ only there can still
give different delays. -/

namespace RobotsTxt

namespace Settings

variable {s t : Settings} {names others : List String} {groups : List Group}

/-- The lists of agents that the matcher may be asked about. -/
inductive Asks (s : Settings) (names : List String) (groups : List Group) : List String → Prop where
  | group {g : Group} (hNames : names ≠ []) (hg : g ∈ groups) (hAgents : g.audience.agents ≠ []) :
      Asks s names groups g.audience.agents
  | delay {g : Group} {d : CrawlDelay} (hNamed : ¬s.Unnamed names groups)
      (hg : s.Obeys names groups g) (hd : d ∈ g.delays) : Asks s names groups d.audience.agents

/-- Settings that address the same groups and take the same delays for the crawler's give the same
access. -/
theorem access_congr (hMax : t.maxCrawlDelay = s.maxCrawlDelay)
    (hAddresses : ∀ g ∈ groups, t.addresses others g = s.addresses names g)
    (hCovers : ¬s.Unnamed names groups → ∀ g, s.Obeys names groups g → ∀ d ∈ g.delays,
      t.matcher others d.audience.agents t.mode = s.matcher names d.audience.agents s.mode) :
    t.access others groups = s.access names groups := by
  have hNamed : t.named others groups = s.named names groups := List.filter_congr hAddresses
  have hWildcard : t.byWildcard others groups = s.byWildcard names groups := by
    rw [byWildcard, hNamed, byWildcard]
  have hSelected : t.selected others groups = s.selected names groups := by
    rw [selected, hWildcard, hNamed, selected]
  have hDelay : t.crawlDelay others groups = s.crawlDelay names groups := by
    rw [crawlDelay, crawlDelay, hSelected]
    refine congrArg _ (List.find?_congr fun d hd => ?_)
    obtain ⟨g, hg, hd⟩ := List.mem_flatMap.mp hd
    cases hUnnamed : s.byWildcard names groups with
    | true => simp [covers, hWildcard, hUnnamed]
    | false =>
      have hSome : ¬s.Unnamed names groups := by simp [← byWildcard_iff, hUnnamed]
      simp [covers, hWildcard, hUnnamed, hCovers hSome g (mem_selected.mp hg) d hd]
  have hRefuses : t.refuses = s.refuses := by
    funext delay
    simp only [refuses, hMax]
  rw [access, access, hSelected, hDelay, hRefuses]

variable {other : Agent.Matcher}

/-- Only the answers on the lists that are asked about count. -/
theorem access_of_asks (h : ∀ declared, s.Asks names groups declared →
      other names declared s.mode = s.matcher names declared s.mode) :
    { s with matcher := other }.access names groups = s.access names groups := by
  refine access_congr rfl (fun g hg => ?_) fun hNamed g hg d hd => h _ (.delay hNamed hg hd)
  by_cases hNames : names = []
  · simp [addresses, hNames]
  · by_cases hAgents : g.audience.agents = []
    · simp [addresses, hAgents]
    · simp [addresses, h _ (.group hNames hg hAgents)]

theorem Asks.names_ne_nil {declared : List String} (h : s.Asks names groups declared) :
    names ≠ [] := by
  cases h with
  | group hNames => exact hNames
  | delay hNamed =>
    rintro rfl
    exact hNamed fun g _ hg => hg.1 rfl

/-- The matcher may be asked about no agents at all: a group that names the crawler has a delay in
front of its agents. -/
theorem asks_nil_iff : s.Asks names groups [] ↔ ¬s.Unnamed names groups ∧
    ∃ g ∈ s.selected names groups, ∃ d ∈ g.delays, d.audience.agents = [] := by
  constructor
  · suffices h : ∀ declared, s.Asks names groups declared → declared = [] →
        ¬s.Unnamed names groups ∧ ∃ g ∈ s.selected names groups, ∃ d ∈ g.delays,
          d.audience.agents = [] from fun hNil => h [] hNil rfl
    rintro _ (⟨-, -, hAgents⟩ | ⟨hNamed, hg, hd⟩) hNone
    · exact absurd hNone hAgents
    · exact ⟨hNamed, _, mem_selected.mpr hg, _, hd, hNone⟩
  · rintro ⟨hNamed, g, hg, d, hd, hNone⟩
    exact hNone ▸ .delay hNamed (mem_selected.mp hg) hd

end Settings

/-! ### A delay in front of all agents -/

/-- An agent as it is kept is kept as it is. -/
theorem Directive.agent?_of_agent? {d : Directive} {agent : String} (h : d.agent? = some agent) :
    (userAgent agent).agent? = some agent := by
  cases d with
  | userAgent value =>
    simp only [agent?] at h
    split at h
    · contradiction
    · rename_i hName
      obtain rfl := Option.some.inj h
      have hTrim := (Text.trimmed_trim value.toList).lowercase.trim_eq
      simp [agent?, hTrim, Text.lowercase_eq_nil_iff, hName, Text.lowercase_lowercase]
  | _ => contradiction

namespace Layout

/-- A delay behind the wildcard and in front of some agents, with a rule for all of them. -/
def delayFirst (agents : List String) : List Directive :=
  .userAgent "*" :: .crawlDelay 1 :: (agents.map .userAgent ++ [.rule .disallow "/"])

/-- The delay is for nobody but everyone. -/
def unscopedDelay : CrawlDelay := ⟨1, ⟨[], true⟩⟩

def delayFirstGroup (agents : List String) : Group :=
  ⟨⟨(Audience.ofNames agents).agents, true⟩, [Rule.ofValue .disallow "/"], [unscopedDelay]⟩

theorem groups_delayFirst [Domains] (base : Option Url) {agents : List String}
    (h : ∀ agent ∈ agents, (Directive.userAgent agent).agent? = some agent) :
    (RuleSet.ofDirectives base (delayFirst agents)).groups = [delayFirstGroup agents] := by
  have hNoRule : ∀ d ∈ agents.map Directive.userAgent, d.rule? = none := by
    simp [Directive.rule?]
  have hHeader : Position.outside.read (delayFirst agents) =
      (Position.header ⟨⟨[], true⟩, [], [unscopedDelay]⟩).read
        (agents.map .userAgent ++ [.rule .disallow "/"]) := rfl
  rw [RuleSet.ofDirectives, Draft.finish, Draft.groups_foldl]
  refine hHeader.trans ?_
  rw [Position.read_header_append hNoRule, Group.extendBy_eq_join, Group.extendBy_agents h]
  simp [Position.read, Position.next, Position.completed, Position.groups, Group.join,
    Audience.join, Group.extend, Directive.agent?, Directive.rule?, Directive.seconds?,
    delayFirstGroup, Rule.ofValue_eq]

/-- The agents of a group are those of some lines. -/
theorem exists_agents_of_mem {ds : List Directive} {g : Group} (hg : g ∈ groups ds) :
    ∃ agents, g.audience = Audience.ofNames agents ∧
      ∀ agent ∈ agents, (Directive.userAgent agent).agent? = some agent := by
  obtain ⟨k, -, rfl⟩ := List.mem_map.mp hg
  refine ⟨(members ds (k + 1) ds.length).filterMap (agentAt ds), rfl, fun agent hAgent => ?_⟩
  obtain ⟨i, -, hAgentAt⟩ := List.mem_filterMap.mp hAgent
  obtain ⟨d, -, hd⟩ := Option.bind_eq_some_iff.mp hAgentAt
  exact Directive.agent?_of_agent? hd

end Layout

namespace Settings

open Layout (delayFirst delayFirstGroup unscopedDelay)

section

variable {s : Settings} {names agents : List String}

theorem exists_named_agents [Domains] {base : Option Url} {ds : List Directive}
    (h : ¬s.Unnamed names (RuleSet.ofDirectives base ds).groups) :
    ∃ agents, (∀ agent ∈ agents, (Directive.userAgent agent).agent? = some agent) ∧
      s.Names names (delayFirstGroup agents) := by
  simp only [Unnamed, Layout.ofDirectives_groups, not_forall, not_not] at h
  obtain ⟨g, hg, hNames⟩ := h
  obtain ⟨agents, hAudience, hAgents⟩ := Layout.exists_agents_of_mem hg
  rw [Names, hAudience] at hNames
  exact ⟨agents, hAgents, hNames⟩

theorem access_delayFirst (h : s.Names names (delayFirstGroup agents)) :
    s.access names [delayFirstGroup agents] =
      if s.matcher names [] s.mode = true then
        if s.refuses (some unscopedDelay.milliseconds) then .none
        else .byRules [Rule.ofValue .disallow "/"] (some unscopedDelay.milliseconds)
      else .byRules [Rule.ofValue .disallow "/"] none := by
  have hNamed : s.named names [delayFirstGroup agents] = [delayFirstGroup agents] :=
    List.filter_cons_of_pos (addresses_iff.mpr h)
  have hWildcard : s.byWildcard names [delayFirstGroup agents] = false := by
    rw [byWildcard, hNamed]
    rfl
  have hSelected : s.selected names [delayFirstGroup agents] = [delayFirstGroup agents] := by
    rw [selected, hWildcard, hNamed]
    rfl
  have hCovers : s.covers names [delayFirstGroup agents] unscopedDelay =
      s.matcher names [] s.mode := by
    rw [covers, hWildcard]
    rfl
  have hDelays : [delayFirstGroup agents].flatMap Group.delays = [unscopedDelay] := rfl
  have hRules : Rule.inPrecedence ([delayFirstGroup agents].flatMap Group.rules) =
      [Rule.ofValue .disallow "/"] := by simp [delayFirstGroup, Rule.inPrecedence]
  have hNone : s.refuses none = false := by simp [refuses]
  rw [access, crawlDelay, hSelected, hDelays, hRules, List.find?_cons, hCovers]
  cases s.matcher names [] s.mode <;> simp [hNone]

theorem firstDelay_delayFirst (h : s.Names names (delayFirstGroup agents))
    (hMatch : s.matcher names [] s.mode = true) :
    s.FirstDelay names [delayFirstGroup agents] unscopedDelay := by
  have hMem : delayFirstGroup agents ∈ [delayFirstGroup agents] := List.mem_singleton_self _
  exact ⟨[], _, [], [], [], rfl, rfl, ⟨hMem, .inl h⟩, .inr ⟨fun hNone => hNone _ hMem h, hMatch⟩,
    by simp, by simp⟩

end

section

variable {s : Settings} {other : Agent.Matcher} {names agents : List String} {base : Option Url}
  {ds : List Directive}

/-- Matchers agree on the empty list of agents if they give a crawler the same access to a file with
a delay in front of all agents. -/
theorem matcher_nil_of_access (h : s.Names names (delayFirstGroup agents))
    (hOther : { s with matcher := other }.Names names (delayFirstGroup agents))
    (hAccess : { s with matcher := other }.access names [delayFirstGroup agents] =
      s.access names [delayFirstGroup agents]) :
    other names [] s.mode = s.matcher names [] s.mode := by
  have hRefuses : { s with matcher := other }.refuses = s.refuses := rfl
  rw [access_delayFirst h, access_delayFirst hOther, hRefuses] at hAccess
  cases hMatch : s.matcher names [] s.mode <;> cases hSame : other names [] s.mode <;>
    cases hRefused : s.refuses (some unscopedDelay.milliseconds) <;>
      simp [hMatch, hSame, hRefused] at hAccess ⊢

/-- Matchers that agree about agents give the same access where they also agree on what else is
asked. -/
theorem access_of_agree (hAgree : ∀ names declared mode, names ≠ [] → declared ≠ [] →
      other names declared mode = s.matcher names declared mode)
    (hNil : s.Asks names groups [] → other names [] s.mode = s.matcher names [] s.mode) :
    { s with matcher := other }.access names groups = s.access names groups := by
  refine access_of_asks fun declared hAsks => ?_
  by_cases hNone : declared = []
  · subst hNone
    exact hNil hAsks
  · exact hAgree _ _ _ hAsks.names_ne_nil hNone

/-- If a file can name a crawler, some file tells matchers apart that differ on the empty list. -/
theorem matcher_nil_of_forall_access [Domains]
    (hAgree : ∀ names declared mode, names ≠ [] → declared ≠ [] →
      other names declared mode = s.matcher names declared mode)
    (hSome : ¬s.Unnamed names (RuleSet.ofDirectives base ds).groups)
    (h : ∀ ds, { s with matcher := other }.access names (RuleSet.ofDirectives base ds).groups =
      s.access names (RuleSet.ofDirectives base ds).groups) :
    other names [] s.mode = s.matcher names [] s.mode := by
  obtain ⟨agents, hAgents, hNamed⟩ := exists_named_agents hSome
  have hOther : { s with matcher := other }.Names names (delayFirstGroup agents) :=
    ⟨hNamed.1, hNamed.2.1, (hAgree _ _ _ hNamed.1 hNamed.2.1).trans hNamed.2.2⟩
  have hAccess := h (delayFirst agents)
  rw [Layout.groups_delayFirst base hAgents] at hAccess
  exact matcher_nil_of_access hNamed hOther hAccess

/-- If a file can name a crawler, a matcher that accepts the empty list gives it a delay in front of
all agents. -/
theorem exists_unscoped [Domains] (hSome : ¬s.Unnamed names (RuleSet.ofDirectives base ds).groups)
    (hMatch : s.matcher names [] s.mode = true) :
    ∃ ds d, ¬s.Unnamed names (RuleSet.ofDirectives base ds).groups ∧
      s.FirstDelay names (RuleSet.ofDirectives base ds).groups d ∧ d.audience.agents = [] := by
  obtain ⟨agents, hAgents, hNamed⟩ := exists_named_agents hSome
  refine ⟨delayFirst agents, unscopedDelay, ?_, ?_, rfl⟩
  · rw [Layout.groups_delayFirst base hAgents]
    exact fun hNone => hNone _ (List.mem_singleton_self _) hNamed
  · rw [Layout.groups_delayFirst base hAgents]
    exact firstDelay_delayFirst hNamed hMatch

theorem FirstDelay.matches {d : CrawlDelay} (h : s.FirstDelay names groups d)
    (hSome : ¬s.Unnamed names groups) : s.matcher names d.audience.agents s.mode = true := by
  obtain ⟨_, _, _, _, _, _, _, _, hScope, _⟩ := h
  exact (hScope.resolve_left fun hWild => hSome hWild.1).2

end

/-- Two matchers that give the same answers about agents give the same policies where no delay stands
in front of all agents of its group.  They give the same policies for all files exactly if they also
agree on the empty list of agents, or name the crawler nowhere; and a delay in front of all agents is
for a crawler that is named exactly if the matcher accepts the empty list. -/
theorem evaluate_matchers [Domains] (s : Settings) (other : Agent.Matcher)
    (hAgree : ∀ names declared mode, names ≠ [] → declared ≠ [] →
      other names declared mode = s.matcher names declared mode)
    {given ready : List String} (hNames : Agent.prepare s.mode given = .ok ready)
    (base : Option Url) :
    let t : Settings := { s with matcher := other }
    let read := RuleSet.ofDirectives base
    (∀ rules : RuleSet, ¬s.Asks ready rules.groups [] →
      t.evaluate given rules = s.evaluate given rules) ∧
    ((∀ ds, t.evaluate given (read ds) = s.evaluate given (read ds)) ↔
      other ready [] s.mode = s.matcher ready [] s.mode ∨ ∀ ds, s.Unnamed ready (read ds).groups) ∧
    ((∀ ds d, ¬s.Unnamed ready (read ds).groups → s.FirstDelay ready (read ds).groups d →
        d.audience.agents ≠ []) ↔
      s.matcher ready [] s.mode = false ∨ ∀ ds, s.Unnamed ready (read ds).groups) := by
  intro t read
  have hEvaluate : ∀ rules, (t.evaluate given rules = s.evaluate given rules ↔
      t.access ready rules.groups = s.access ready rules.groups) := fun rules => by
    rw [evaluate_of_prepare (s := t) hNames, evaluate_of_prepare (s := s) hNames]
    simp [policy]
  refine ⟨fun rules hNil => ?_, ⟨fun h => ?_, ?_⟩, fun h => ?_, ?_⟩
  · exact (hEvaluate rules).mpr (access_of_agree hAgree fun hAsks => absurd hAsks hNil)
  · rw [or_iff_not_imp_right, not_forall]
    rintro ⟨ds, hSome⟩
    exact matcher_nil_of_forall_access hAgree hSome fun ds => (hEvaluate _).mp (h ds)
  · rintro (hNil | hUnnamed) ds
    · exact (hEvaluate _).mpr (access_of_agree hAgree fun _ => hNil)
    · refine (hEvaluate _).mpr (access_of_agree hAgree fun hAsks => ?_)
      exact absurd (hUnnamed ds) (asks_nil_iff.mp hAsks).1
  · rw [or_iff_not_imp_right, not_forall]
    rintro ⟨ds, hSome⟩
    by_contra hMatch
    obtain ⟨ds, d, hSome, hFirst, hNone⟩ := exists_unscoped hSome (by simpa using hMatch)
    exact h ds d hSome hFirst hNone
  · rintro (hMatch | hUnnamed) ds d hSome hFirst hNone
    · have hMatched := hFirst.matches hSome
      rw [hNone, hMatch] at hMatched
      contradiction
    · exact hSome (hUnnamed ds)

/-- Accepts every crawler for all agents. -/
def acceptsAll : Agent.Matcher := fun _ _ _ => true

/-- Accepts every crawler for all agents, if there are any. -/
def acceptsAgents : Agent.Matcher := fun _ declared _ => !declared.isEmpty

/-- A file in which the delay in front of all agents is in a group for everyone else. -/
def delaysApart : List Directive :=
  [.userAgent "*", .crawlDelay 5, .rule .disallow "/x", .userAgent "a", .crawlDelay 1,
    .rule .allow "/"]

theorem evaluate_matchers_apart :
    (∀ names declared mode, names ≠ [] → declared ≠ [] →
      acceptsAgents names declared mode = acceptsAll names declared mode) ∧
    Agent.prepare .exact ["a"] = .ok ["a"] ∧
    ¬{ standard with matcher := acceptsAll }.Asks ["a"]
      (RuleSet.ofDirectives none delaysApart).groups [] ∧
    { standard with matcher := acceptsAgents }.evaluate ["a"] (RuleSet.ofDirectives none delaysApart) =
      { standard with matcher := acceptsAll }.evaluate ["a"]
        (RuleSet.ofDirectives none delaysApart) := by
  have hAgree : ∀ names declared mode, names ≠ [] → declared ≠ [] →
      acceptsAgents names declared mode = acceptsAll names declared mode := by
    simp +contextual [acceptsAgents, acceptsAll]
  have hNames : Agent.prepare .exact ["a"] = .ok ["a"] := by decide
  have hAsks : ¬{ standard with matcher := acceptsAll }.Asks ["a"]
      (RuleSet.ofDirectives none delaysApart).groups [] := by
    rw [asks_nil_iff, not_and]
    intro _
    decide +kernel
  exact ⟨hAgree, hNames, hAsks,
    (evaluate_matchers { standard with matcher := acceptsAll } acceptsAgents hAgree hNames none).1 _
      hAsks⟩

/-- The two matchers differ on no list of agents, and only one of them has the delay in front of all
agents be for a crawler that the group names. -/
theorem evaluate_matchers_unscoped :
    (∀ names declared mode, names ≠ [] → declared ≠ [] →
      acceptsAgents names declared mode = acceptsAll names declared mode) ∧
    ∃ policy other,
      { standard with maxCrawlDelay := none, matcher := acceptsAll }.evaluate ["a"]
        (RuleSet.ofDirectives none (delayFirst ["a"])) = .ok policy ∧
      { standard with maxCrawlDelay := none, matcher := acceptsAgents }.evaluate ["a"]
        (RuleSet.ofDirectives none (delayFirst ["a"])) = .ok other ∧
      policy.crawlDelay = some unscopedDelay.milliseconds ∧ other.crawlDelay = none := by
  have hNames : Agent.prepare .exact ["a"] = .ok ["a"] := by decide
  refine ⟨by simp +contextual [acceptsAgents, acceptsAll], _, _,
    evaluate_of_prepare (s := { standard with maxCrawlDelay := none, matcher := acceptsAll })
      hNames _,
    evaluate_of_prepare (s := { standard with maxCrawlDelay := none, matcher := acceptsAgents })
      hNames _, ?_, ?_⟩
  · rfl
  · decide +kernel

end Settings

end RobotsTxt
