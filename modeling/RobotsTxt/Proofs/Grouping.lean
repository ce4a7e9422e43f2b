import RobotsTxt.Proofs.Layout
import RobotsTxt.RuleSet.Parse

/-! Reading directives one by one gives the groups of their layout.  The draft knows one thing about
the directives before it beside their groups: in a header an agent has been declared since the last
rule, and in a body none has. -/

namespace RobotsTxt

theorem Text.lowercase_eq_nil_iff {s : List Char} : Text.lowercase s = [] ↔ s = [] := by
  cases s with
  | nil => simp [Text.lowercase, Text.lowerFrom]
  | cons c rest =>
    refine iff_of_false (fun h => ?_) (by simp)
    obtain ⟨hSmall, -⟩ := List.append_eq_nil_iff.mp h
    split at hSmall
    · split at hSmall <;> contradiction
    · split at hSmall <;> contradiction

theorem Rule.ofValue_eq (verdict : Verdict) (value : String) : Rule.ofValue verdict value =
    ⟨Pattern.ofText value, if Text.trim value.toList = [] then .allow else verdict⟩ := by
  simp [Rule.ofValue, Pattern.isEmpty, Pattern.ofText, String.isEmpty_iff,
    String.ofList_eq_empty_iff]

/-! ### What a directive does to a draft -/

/-- The position after a directive. -/
def Position.next (d : Directive) : Position → Position
  | .outside => if d.agent?.isSome then .header (Group.empty.extend d) else .outside
  | .header g => if d.rule?.isSome then .body (g.extend d) else .header (g.extend d)
  | .body g => if d.agent?.isSome then .header (Group.empty.extend d) else .body (g.extend d)

/-- The group that a directive completes. -/
def Position.completed (d : Directive) : Position → List Group
  | .body g => if d.agent?.isSome then [g] else []
  | _ => []

/-- A directive that gives no agent, rule or delay is idle: it leaves the groups alone. -/
theorem Position.next_of_idle {d : Directive} (hAgent : d.agent? = none) (hRule : d.rule? = none)
    (hSeconds : d.seconds? = none) (p : Position) : p.next d = p ∧ p.completed d = [] := by
  have hExtend : ∀ g : Group, g.extend d = g := fun g => by
    simp [Group.extend, hAgent, hRule, hSeconds]
  cases p <;> simp [Position.next, Position.completed, hAgent, hRule, hExtend]

namespace Draft

theorem addAgent_of_none {value : String} (h : (Directive.userAgent value).agent? = none)
    (draft : Draft) : draft.addAgent value = draft.warn := by
  have hBlank : Text.trim value.toList = [] := by simpa [Directive.agent?] using h
  simp [addAgent, hBlank, Text.lowercase_eq_nil_iff.mpr]

theorem addAgent_of_some {value agent : String}
    (h : (Directive.userAgent value).agent? = some agent) :
    agent = String.ofList (Text.lowercase (Text.trim value.toList)) ∧ agent.isEmpty = false := by
  simp only [Directive.agent?] at h
  split at h
  · contradiction
  · rename_i hName
    obtain rfl := Option.some.inj h
    refine ⟨rfl, ?_⟩
    simpa [String.isEmpty_iff, String.ofList_eq_empty_iff, Text.lowercase_eq_nil_iff] using hName

variable [Domains]

theorem addSitemap_position_closed (base : Option Url) (draft : Draft) (value : String) :
    (draft.addSitemap base value).position = draft.position ∧
      (draft.addSitemap base value).closed = draft.closed := by
  unfold addSitemap
  split
  · exact ⟨rfl, rfl⟩
  · split <;> exact ⟨rfl, rfl⟩

/-- A directive moves the draft to the next position and completes a group if that starts one. -/
theorem add_position_closed (base : Option Url) (draft : Draft) (d : Directive) :
    (draft.add base d).position = draft.position.next d ∧
      (draft.add base d).closed = draft.closed ++ draft.position.completed d := by
  cases d with
  | userAgent value =>
    rw [add]
    cases hAgent : (Directive.userAgent value).agent? with
    | none =>
      rw [addAgent_of_none hAgent]
      simp [warn, Position.next_of_idle hAgent rfl rfl]
    | some agent =>
      obtain ⟨hName, hNonempty⟩ := addAgent_of_some hAgent
      cases hPosition : draft.position <;>
        simp [addAgent, ← hName, hNonempty, hPosition, Position.next, Position.completed, hAgent,
          Directive.rule?, Directive.seconds?, Group.extend, Group.ofAgent, Group.empty]
  | rule verdict value =>
    rw [add]
    cases hPosition : draft.position <;>
      simp [addRule, warn, hPosition, Position.next, Position.completed, Directive.rule?,
        Directive.seconds?, Directive.agent?, Group.extend, Rule.ofValue_eq]
  | crawlDelay seconds =>
    rw [add]
    cases hPosition : draft.position <;>
      simp [addDelay, withDelay, warn, hPosition, Position.next, Position.completed,
        Directive.rule?, Directive.seconds?, Directive.agent?, Group.extend]
  | sitemap value =>
    simp [add, addSitemap_position_closed, Position.next_of_idle (d := .sitemap value) rfl rfl rfl]
  | extension field value =>
    simp [add, Position.next_of_idle (d := .extension field value) rfl rfl rfl]
  | unknown field value =>
    simp [add, warn, Position.next_of_idle (d := .unknown field value) rfl rfl rfl]
  | invalid field value =>
    simp [add, warn, Position.next_of_idle (d := .invalid field value) rfl rfl rfl]

end Draft

/-! ### The groups of a draft -/

namespace Layout

variable (ds : List Directive)

/-- The draft of the directives before position `n`. -/
def draftBefore [Domains] (base : Option Url) (n : Nat) : Draft :=
  (ds.take n).foldl (Draft.add base) Draft.empty

/-- The first `m` groups, as they stand before position `n`. -/
def firstGroups (m n : Nat) : List Group := (List.range m).map fun k => groupBefore ds (k + 1) n

/-- A draft stands where the directives before position `n` end: the groups that start before the
last are complete, the last is in the making, and it is in its header until a rule follows. -/
def Tracks (n : Nat) (draft : Draft) : Prop :=
  match draft.position with
  | .outside => started ds n = 0 ∧ draft.closed = [] ∧ ¬Follows ds n
  | .header g => ∃ m, started ds n = m + 1 ∧ draft.closed = firstGroups ds m n ∧
      g = groupBefore ds (m + 1) n ∧ ¬Settled ds n
  | .body g => ∃ m, started ds n = m + 1 ∧ draft.closed = firstGroups ds m n ∧
      g = groupBefore ds (m + 1) n ∧ Settled ds n

variable {ds}

theorem firstGroups_succ_of_lt {m n : Nat} (h : m < home ds n) :
    firstGroups ds m (n + 1) = firstGroups ds m n := by
  refine List.map_congr_left fun k hk => groupBefore_succ_of_ne ?_
  have := List.mem_range.mp hk
  omega

theorem firstGroups_append {m n : Nat} :
    firstGroups ds (m + 1) n = firstGroups ds m n ++ [groupBefore ds (m + 1) n] := by
  simp [firstGroups, List.range_succ]

theorem agent?_eq_none_of_rule? {d : Directive} (h : d.rule?.isSome = true) : d.agent? = none := by
  cases d <;> simp_all [Directive.rule?, Directive.agent?]

theorem settled_of_not_follows {n : Nat} (h : ¬Follows ds n) : Settled ds n :=
  fun i hi hAgent => absurd ⟨i, hi, hAgent⟩ h

section Step

variable [Domains] {base : Option Url} {n : Nat} {d : Directive} {draft : Draft}

theorem Tracks.add_outside (hd : ds[n]? = some d) (hPosition : draft.position = .outside)
    (h : Tracks ds n draft) : Tracks ds (n + 1) (draft.add base d) := by
  obtain ⟨hNext, hClosed⟩ := Draft.add_position_closed base draft d
  simp only [Tracks, hPosition] at h
  obtain ⟨hStarted, hNone, hFollows⟩ := h
  simp only [hPosition, Position.completed, hNone, List.append_nil] at hClosed
  rw [hPosition, Position.next] at hNext
  by_cases hAgent : d.agent?.isSome = true
  · have hAgentAt : (agentAt ds n).isSome = true := by rwa [agentAt_eq hd]
    have hHome := home_of_opens ⟨hAgentAt, settled_of_not_follows hFollows⟩
    rw [hStarted] at hHome
    rw [if_pos hAgent] at hNext
    have hGroup := groupBefore_succ_home hd (follows_succ.mpr (.inr hAgentAt))
    rw [hHome, groupBefore_eq_empty (n := n) (by omega)] at hGroup
    simp only [Tracks, hNext]
    exact ⟨0, hHome, hClosed, hGroup.symm, settled_succ_of_agent hAgentAt⟩
  · have hAgentAt : ¬(agentAt ds n).isSome = true := by rwa [agentAt_eq hd]
    have hHome := home_of_not_opens fun hOpens : Opens ds n => hAgentAt hOpens.1
    rw [if_neg hAgent] at hNext
    simp only [Tracks, hNext]
    refine ⟨hHome.trans hStarted, hClosed, fun hNow => ?_⟩
    rcases follows_succ.mp hNow with hBefore | hHere
    · exact hFollows hBefore
    · exact hAgentAt hHere

theorem Tracks.add_header {g : Group} (hd : ds[n]? = some d) (hPosition : draft.position = .header g)
    (h : Tracks ds n draft) : Tracks ds (n + 1) (draft.add base d) := by
  obtain ⟨hNext, hClosed⟩ := Draft.add_position_closed base draft d
  simp only [Tracks, hPosition] at h
  obtain ⟨m, hStarted, hFirst, rfl, hOpen⟩ := h
  have hFollows : Follows ds n := follows_of_started_pos (by omega)
  have hHome := (home_of_not_opens fun hOpens : Opens ds n => hOpen hOpens.2).trans hStarted
  have hGroup := groupBefore_succ_home hd (follows_succ.mpr (.inl hFollows))
  rw [hHome] at hGroup
  simp only [hPosition, Position.completed, List.append_nil, hFirst] at hClosed
  rw [← firstGroups_succ_of_lt (by omega)] at hClosed
  rw [hPosition, Position.next, ← hGroup] at hNext
  by_cases hRule : d.rule?.isSome = true
  · rw [if_pos hRule] at hNext
    simp only [Tracks, hNext]
    refine ⟨m, hHome, hClosed, rfl, settled_succ_of_rule ?_ ?_⟩
    · rwa [ruleAt_eq hd hFollows]
    · rw [agentAt_eq hd, agent?_eq_none_of_rule? hRule]
  · rw [if_neg hRule] at hNext
    simp only [Tracks, hNext]
    refine ⟨m, hHome, hClosed, rfl, ?_⟩
    cases hAgent : d.agent? with
    | some agent => exact settled_succ_of_agent (by rw [agentAt_eq hd, hAgent]; rfl)
    | none =>
      have hRuleAt : ruleAt ds n = none := by simpa [ruleAt_eq hd hFollows] using hRule
      rwa [settled_succ_of_none hRuleAt (by rw [agentAt_eq hd, hAgent])]

theorem Tracks.add_body {g : Group} (hd : ds[n]? = some d) (hPosition : draft.position = .body g)
    (h : Tracks ds n draft) : Tracks ds (n + 1) (draft.add base d) := by
  obtain ⟨hNext, hClosed⟩ := Draft.add_position_closed base draft d
  simp only [Tracks, hPosition] at h
  obtain ⟨m, hStarted, hFirst, rfl, hSettled⟩ := h
  have hFollows : Follows ds n := follows_of_started_pos (by omega)
  have hGroup := groupBefore_succ_home hd (follows_succ.mpr (.inl hFollows))
  rw [hPosition, Position.completed] at hClosed
  rw [hPosition, Position.next] at hNext
  by_cases hAgent : d.agent?.isSome = true
  · have hAgentAt : (agentAt ds n).isSome = true := by rwa [agentAt_eq hd]
    have hHome := home_of_opens ⟨hAgentAt, hSettled⟩
    rw [hStarted] at hHome
    rw [hHome, groupBefore_eq_empty (n := n) (by omega)] at hGroup
    rw [if_pos hAgent, hFirst, ← firstGroups_append, ← firstGroups_succ_of_lt (by omega)] at hClosed
    rw [if_pos hAgent, ← hGroup] at hNext
    simp only [Tracks, hNext]
    exact ⟨m + 1, hHome, hClosed, rfl, settled_succ_of_agent hAgentAt⟩
  · have hAgentAt : agentAt ds n = none := by simpa [agentAt_eq hd] using hAgent
    have hHome := home_of_not_opens fun hOpens : Opens ds n => by
      simpa [hAgentAt] using hOpens.1
    rw [hHome, hStarted] at hGroup
    rw [if_neg hAgent, List.append_nil, hFirst, ← firstGroups_succ_of_lt (by omega)] at hClosed
    rw [if_neg hAgent, ← hGroup] at hNext
    simp only [Tracks, hNext]
    refine ⟨m, hHome.trans hStarted, hClosed, rfl, ?_⟩
    cases hRule : ruleAt ds n with
    | some rule => exact settled_succ_of_rule (by rw [hRule]; rfl) hAgentAt
    | none => rwa [settled_succ_of_none hRule hAgentAt]

theorem Tracks.add (hd : ds[n]? = some d) (h : Tracks ds n draft) :
    Tracks ds (n + 1) (draft.add base d) := by
  cases hPosition : draft.position with
  | outside => exact h.add_outside hd hPosition
  | header g => exact h.add_header hd hPosition
  | body g => exact h.add_body hd hPosition

end Step

theorem draftBefore_succ [Domains] {base : Option Url} {n : Nat} {d : Directive}
    (hd : ds[n]? = some d) :
    draftBefore ds base (n + 1) = (draftBefore ds base n).add base d := by
  simp [draftBefore, List.take_add_one, hd]

/-- At every position the draft stands where the directives before it end. -/
theorem tracks_draftBefore [Domains] (base : Option Url) {n : Nat} (hn : n ≤ ds.length) :
    Tracks ds n (draftBefore ds base n) := by
  induction n with
  | zero => exact ⟨rfl, rfl, fun ⟨i, hi, _⟩ => absurd hi (Nat.not_lt_zero i)⟩
  | succ n ih =>
    have hd : ds[n]? = some ds[n] := List.getElem?_eq_getElem hn
    rw [draftBefore_succ hd]
    exact (ih (by omega)).add hd

theorem Tracks.groups_eq {n : Nat} {draft : Draft} (h : Tracks ds n draft) :
    draft.groups = firstGroups ds (started ds n) n := by
  rw [Draft.groups]
  cases hPosition : draft.position with
  | outside =>
    simp only [Tracks, hPosition] at h
    simp [h, firstGroups]
  | header g | body g =>
    simp only [Tracks, hPosition] at h
    obtain ⟨m, hStarted, hFirst, rfl, -⟩ := h
    simp only
    rw [hStarted, firstGroups_append, hFirst]

/-- Reading directives gives the groups of their layout. -/
theorem ofDirectives_groups [Domains] (base : Option Url) (ds : List Directive) :
    (RuleSet.ofDirectives base ds).groups = groups ds := by
  have h := (tracks_draftBefore base (Nat.le_refl ds.length)).groups_eq
  rw [draftBefore, List.take_length] at h
  exact h

/-- The groups that reading directives gives are those of the layout, and the layout is this: two
agents share a group if and only if no rule stands between them, what follows an agent is in its
group up to the next agent, groups stand in the order of their positions, every position from the
first agent on is in one of them, and one group after the other they hold the rules and the crawl
delays of the file in order. -/
theorem ofDirectives_layout [Domains] (base : Option Url) (ds : List Directive) :
    (RuleSet.ofDirectives base ds).groups = groups ds ∧
      (∀ i j, i < j → (agentAt ds i).isSome = true → (agentAt ds j).isSome = true →
        (home ds i = home ds j ↔ ∀ k, i < k → k < j → ruleAt ds k = none)) ∧
      (∀ i j, i ≤ j → (∀ k, i < k → k ≤ j → agentAt ds k = none) → home ds j = home ds i) ∧
      (∀ i j, i ≤ j → home ds i ≤ home ds j) ∧
      (∀ i < ds.length, Follows ds (i + 1) → 0 < home ds i ∧ home ds i ≤ (groups ds).length) ∧
      (groups ds).flatMap Group.rules = (List.range ds.length).filterMap (ruleAt ds) ∧
      (groups ds).flatMap Group.delays = (List.range ds.length).filterMap (delayAt ds) := by
  refine ⟨ofDirectives_groups base ds, fun i j => home_eq_iff, fun i j => home_eq_of_no_agent,
    fun i j => home_mono, fun i hi hFollows => ⟨started_pos_of_follows hFollows, ?_⟩,
    flatMap_rules, flatMap_delays⟩
  rw [length_groups]
  exact started_mono hi

end Layout

end RobotsTxt
