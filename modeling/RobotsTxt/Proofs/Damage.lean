import RobotsTxt.Proofs.Decision
import RobotsTxt.Proofs.Grouping

/-! What a rule that cannot be read costs.  Damage makes an invalid line of it, which tells a draft
nothing.  The groups are then the same but for that rule, unless it is the only one between two
agents: then the header of the first agent is still open at the second, and their groups become
one. -/

namespace RobotsTxt

/-! ### Groups joined -/

/-- The agents of one audience and then those of another. -/
def Audience.join (a b : Audience) : Audience :=
  ⟨a.agents ++ b.agents.filter (!a.agents.contains ·), a.wildcard || b.wildcard⟩

theorem Audience.join_empty (a : Audience) : a.join Audience.empty = a := by
  simp [join, Audience.empty]

theorem Audience.join_declare (a b : Audience) (agent : String) :
    a.join (b.declare agent) = (a.join b).declare agent := by
  by_cases hStar : agent = "*"
  · simp [join, declare, hStar]
  · by_cases hLeft : agent ∈ a.agents <;> by_cases hRight : agent ∈ b.agents <;>
      simp [join, declare, hStar, hLeft, hRight]

namespace Group

/-- The lines of one group and then those of another.  The crawl delays of the second are for the
agents of the first as well. -/
def join (g h : Group) : Group where
  audience := g.audience.join h.audience
  rules := g.rules ++ h.rules
  delays := g.delays ++ h.delays.map fun d => ⟨d.seconds, g.audience.join d.audience⟩

/-- A group with more lines. -/
def extendBy (g : Group) (ds : List Directive) : Group := ds.foldl Group.extend g

theorem join_empty (g : Group) : g.join Group.empty = g := by
  simp [join, Group.empty, Audience.join_empty]

theorem join_extend (g h : Group) (d : Directive) : (g.join h).extend d = g.join (h.extend d) := by
  have hAudience : d.agent?.elim (g.audience.join h.audience) (g.audience.join h.audience).declare =
      g.audience.join (d.agent?.elim h.audience h.audience.declare) := by
    cases d.agent? with
    | none => rfl
    | some agent => exact (Audience.join_declare ..).symm
  cases hSeconds : d.seconds? <;> simp [join, extend, hAudience, hSeconds]

theorem join_extendBy (g h : Group) (ds : List Directive) :
    (g.join h).extendBy ds = g.join (h.extendBy ds) := by
  induction ds generalizing h with
  | nil => rfl
  | cons d ds ih =>
    rw [extendBy, List.foldl_cons, join_extend]
    exact ih (h.extend d)

/-- More lines join the group that they would make on their own. -/
theorem extendBy_eq_join (g : Group) (ds : List Directive) :
    g.extendBy ds = g.join (Group.empty.extendBy ds) := by
  rw [← join_extendBy, join_empty]

end Group

/-! ### Groups from a position on -/

namespace Position

def groups : Position → List Group
  | .outside => []
  | .header g => [g]
  | .body g => [g]

/-- The groups that directives make from a position on, the one in the making first. -/
def read : Position → List Directive → List Group
  | p, [] => p.groups
  | p, d :: rest => p.completed d ++ (p.next d).read rest

/-- From a body on, the lines before the next agent are of the group, and those behind it are not. -/
theorem read_body (g : Group) (ds : List Directive) : (body g).read ds =
    g.extendBy (ds.takeWhile (·.agent?.isNone)) ::
      outside.read (ds.dropWhile (·.agent?.isNone)) := by
  induction ds generalizing g with
  | nil => rfl
  | cons d ds ih =>
    cases hAgent : d.agent? with
    | none => simp [read, completed, next, hAgent, ih, Group.extendBy]
    | some agent => simp [read, completed, next, hAgent, Group.extendBy]

/-- Which lines a header still gets does not depend on the group in it. -/
theorem exists_read_header (ds : List Directive) :
    ∃ lines right, ∀ g, (header g).read ds = g.extendBy lines :: right := by
  induction ds with
  | nil => exact ⟨[], [], fun g => rfl⟩
  | cons d ds ih =>
    by_cases hRule : d.rule?.isSome = true
    · refine ⟨d :: ds.takeWhile (·.agent?.isNone), outside.read (ds.dropWhile (·.agent?.isNone)),
        fun g => ?_⟩
      simp [read, completed, next, hRule, read_body, Group.extendBy]
    · obtain ⟨lines, right, hRead⟩ := ih
      refine ⟨d :: lines, right, fun g => ?_⟩
      simp [read, completed, next, hRule, hRead, Group.extendBy]

end Position

namespace Draft

theorem groups_eq_append (draft : Draft) :
    draft.groups = draft.closed ++ draft.position.groups := by
  rw [Draft.groups]
  cases draft.position <;> simp [Position.groups]

theorem groups_foldl [Domains] (base : Option Url) (draft : Draft) (ds : List Directive) :
    (ds.foldl (Draft.add base) draft).groups = draft.closed ++ draft.position.read ds := by
  induction ds generalizing draft with
  | nil => exact draft.groups_eq_append
  | cons d ds ih =>
    obtain ⟨hNext, hClosed⟩ := add_position_closed base draft d
    rw [List.foldl_cons, ih, hNext, hClosed, Position.read, List.append_assoc]

end Draft

/-! ### What a rule separates -/

namespace Directive

/-- In a list of directives an agent comes before any rule. -/
def AgentFirst : List Directive → Prop
  | [] => False
  | d :: rest => d.agent?.isSome = true ∨ d.rule? = none ∧ AgentFirst rest

theorem agentFirst_iff {ds : List Directive} : AgentFirst ds ↔
    ∃ j : Nat, (ds[j]?.bind agent?).isSome = true ∧ ∀ k < j, ds[k]?.bind rule? = none := by
  induction ds with
  | nil => simp [AgentFirst]
  | cons d ds ih =>
    rw [AgentFirst, ih]
    constructor
    · rintro (hAgent | ⟨hRule, j, hAgent, hNone⟩)
      · exact ⟨0, by simpa using hAgent, fun k hk => absurd hk (Nat.not_lt_zero k)⟩
      · refine ⟨j + 1, by simpa using hAgent, fun k hk => ?_⟩
        cases k with
        | zero => simpa using hRule
        | succ k => simpa using hNone k (by omega)
    · rintro ⟨j, hAgent, hNone⟩
      cases j with
      | zero => exact .inl (by simpa using hAgent)
      | succ j =>
        refine .inr ⟨by simpa using hNone 0 (by omega), j, by simpa using hAgent, fun k hk => ?_⟩
        simpa using hNone (k + 1) (by omega)

end Directive

open Directive (AgentFirst)

namespace Position

/-- Where no agent comes before a rule, a header might as well be closed. -/
theorem read_header_of_not_agentFirst {ds : List Directive} (h : ¬AgentFirst ds) (g : Group) :
    (header g).read ds = (body g).read ds := by
  induction ds generalizing g with
  | nil => rfl
  | cons d ds ih =>
    simp only [AgentFirst, not_or, not_and] at h
    obtain ⟨hAgent, hRest⟩ := h
    by_cases hRule : d.rule?.isSome = true
    · simp [read, completed, next, hRule, hAgent]
    · have hStep := ih (hRest (by simpa using hRule)) (g.extend d)
      simp [read, completed, next, hRule, hAgent, hStep]

/-- Where an agent comes before any rule, it starts a group behind a body and joins a header. -/
theorem exists_read_of_agentFirst {ds : List Directive} (h : AgentFirst ds) :
    ∃ idle lines right, (∀ d ∈ idle, d.rule? = none) ∧ ∀ g,
      (header g).read ds = (g.extendBy idle).extendBy lines :: right ∧
        (body g).read ds = g.extendBy idle :: Group.empty.extendBy lines :: right := by
  induction ds with
  | nil => exact absurd h id
  | cons d ds ih =>
    by_cases hAgent : d.agent?.isSome = true
    · have hRule : d.rule? = none := by cases d <;> simp_all [Directive.agent?, Directive.rule?]
      obtain ⟨lines, right, hRead⟩ := exists_read_header ds
      refine ⟨[], d :: lines, right, by simp, fun g => ?_⟩
      simp [read, completed, next, hAgent, hRule, hRead, Group.extendBy]
    · obtain ⟨hRule, hRest⟩ := h.resolve_left hAgent
      obtain ⟨idle, lines, right, hIdle, hRead⟩ := ih hRest
      refine ⟨d :: idle, lines, right, by simpa [hRule] using hIdle, fun g => ?_⟩
      obtain ⟨hHeader, hBody⟩ := hRead (g.extend d)
      simp [read, completed, next, hAgent, hRule, hHeader, hBody, Group.extendBy]

end Position

namespace Layout

variable (ds : List Directive)

/-- The rule at a position is the only one between two agents. -/
def Separates (n : Nat) : Prop :=
  ∃ i j, i < n ∧ n < j ∧ (agentAt ds i).isSome = true ∧ (agentAt ds j).isSome = true ∧
    ∀ k, i < k → k < j → k ≠ n → ruleAt ds k = none

variable {ds}

theorem separates_iff {n : Nat} (h : Follows ds n) :
    Separates ds n ↔ ¬Settled ds n ∧ AgentFirst (ds.drop (n + 1)) := by
  have hBehind : ∀ k, n < k → ruleAt ds k = ds[k]?.bind Directive.rule? := by
    intro k hk
    obtain ⟨i, hi, hAgent⟩ := h
    have hFollows : Follows ds k := ⟨i, by omega, hAgent⟩
    simp [ruleAt, hFollows]
  rw [Directive.agentFirst_iff]
  simp only [List.getElem?_drop]
  constructor
  · rintro ⟨i, j, hin, hnj, hi, hj, hNone⟩
    refine ⟨fun hSettled => ?_, j - (n + 1), ?_, fun k hk => ?_⟩
    · obtain ⟨k, hkn, hik, hRule⟩ := hSettled i hin hi
      simp [hNone k hik (by omega) (by omega)] at hRule
    · rwa [show n + 1 + (j - (n + 1)) = j by omega]
    · rw [← hBehind _ (by omega)]
      exact hNone _ (by omega) (by omega) (by omega)
  · rintro ⟨hOpen, j, hj, hNone⟩
    simp only [Settled, not_forall, not_exists, not_and] at hOpen
    obtain ⟨i, hin, hi, hOpen⟩ := hOpen
    refine ⟨i, n + 1 + j, hin, by omega, hi, hj, fun k hik hkj hkn => ?_⟩
    rcases Nat.lt_or_gt_of_ne hkn with hLess | hMore
    · simpa using hOpen k hLess hik
    · rw [hBehind k hMore, show k = n + 1 + (k - (n + 1)) by omega]
      exact hNone _ (by omega)

/-! ### Files with a damaged rule -/

/-- `others` are `groups` without the rule `r` that stands behind the rules `earlier`. -/
def LosesRule (earlier : List Rule) (r : Rule) (groups others : List Group) : Prop :=
  ∃ (left right : List Group) (g : Group) (rules more : List Rule),
    left.flatMap Group.rules ++ rules = earlier ∧
    groups = left ++ { g with rules := rules ++ r :: more } :: right ∧
    others = left ++ { g with rules := rules ++ more } :: right

/-- `others` are `groups` without the rule `r` that stands behind the rules `earlier`, and the group
that it was the last rule of is joined with the next. -/
def JoinsGroups (earlier : List Rule) (r : Rule) (groups others : List Group) : Prop :=
  ∃ (left right : List Group) (g next : Group), left.flatMap Group.rules ++ g.rules = earlier ∧
    groups = left ++ { g with rules := g.rules ++ [r] } :: next :: right ∧
    others = left ++ g.join next :: right

theorem LosesRule.length_eq {earlier : List Rule} {r : Rule} {groups others : List Group}
    (h : LosesRule earlier r groups others) : others.length = groups.length := by
  obtain ⟨left, right, g, rules, more, -, rfl, rfl⟩ := h
  simp

theorem JoinsGroups.length_lt {earlier : List Rule} {r : Rule} {groups others : List Group}
    (h : JoinsGroups earlier r groups others) : others.length < groups.length := by
  obtain ⟨left, right, g, next, -, rfl, rfl⟩ := h
  simp

/-- A crawler obeys no rule that it did not obey before one was lost. -/
theorem LosesRule.obeyed {earlier : List Rule} {r : Rule} {groups others : List Group}
    (h : LosesRule earlier r groups others) {s : Settings} {names : List String} {rule : Rule}
    (hObeyed : ∃ g, s.Obeys names others g ∧ rule ∈ g.rules) :
    ∃ g, s.Obeys names groups g ∧ rule ∈ g.rules := by
  obtain ⟨left, right, g, rules, more, -, rfl, rfl⟩ := h
  have hSame : ∀ l : List Group, List.Forall₂ (fun g h => h.audience = g.audience) l l := fun l =>
    List.forall₂_same.mpr fun _ _ => rfl
  have hUnnamed : s.byWildcard names (left ++ { g with rules := rules ++ more } :: right) =
      s.byWildcard names (left ++ { g with rules := rules ++ r :: more } :: right) :=
    Settings.byWildcard_congr (List.rel_append (hSame left) (.cons rfl (hSame right)))
  rw [Bool.eq_iff_iff, Settings.byWildcard_iff, Settings.byWildcard_iff] at hUnnamed
  obtain ⟨h, ⟨hMem, hFor⟩, hRule⟩ := hObeyed
  rw [hUnnamed] at hFor
  rcases List.mem_append.mp hMem with hLeft | hMem
  · exact ⟨h, ⟨List.mem_append_left _ hLeft, hFor⟩, hRule⟩
  · rcases List.mem_cons.mp hMem with rfl | hRight
    · refine ⟨{ g with rules := rules ++ r :: more }, ⟨by simp, hFor⟩, ?_⟩
      rcases List.mem_append.mp hRule with hRules | hMore
      · exact List.mem_append_left _ hRules
      · exact List.mem_append_right _ (List.mem_cons_of_mem _ hMore)
    · exact ⟨h, ⟨by simp [hRight], hFor⟩, hRule⟩

theorem rules_extendBy (g : Group) (lines : List Directive) :
    (g.extendBy lines).rules = g.rules ++ lines.filterMap Directive.rule? := by
  induction lines generalizing g with
  | nil => simp [Group.extendBy]
  | cons d lines ih =>
    rw [Group.extendBy, List.foldl_cons]
    refine (ih (g.extend d)).trans ?_
    cases hRule : d.rule? <;> simp [Group.extend, hRule]

/-- A rule at the front of some lines is one more rule of the group that they extend. -/
theorem extendBy_rule (g : Group) (verdict : Verdict) (value : String) (lines : List Directive) :
    (g.extend (.rule verdict value)).extendBy lines = { g.extendBy lines with
      rules := g.rules ++ Rule.ofValue verdict value :: lines.filterMap Directive.rule? } := by
  have hRule : g.extend (.rule verdict value) =
      { g with rules := g.rules ++ [Rule.ofValue verdict value] } := by
    simp [Group.extend, Directive.agent?, Directive.rule?, Directive.seconds?, Rule.ofValue_eq]
  have hRules := rules_extendBy Group.empty lines
  simp only [Group.empty, List.nil_append] at hRules
  rw [Group.extendBy_eq_join, Group.extendBy_eq_join g, hRule]
  simp [Group.join, Group.empty, hRules]

theorem firstGroups_rules (n : Nat) : (firstGroups ds (started ds n) n).flatMap Group.rules =
    (List.range n).filterMap (ruleAt ds) := by
  rw [firstGroups, List.flatMap_map]
  exact flatMap_members_filterMap n fun _ => follows_of_ruleAt

section

variable [Domains]

/-- Behind an agent a draft is in a group, which has the rules that the complete groups do not. -/
theorem exists_position_eq (base : Option Url) {n : Nat} (hn : n ≤ ds.length)
    (hFollows : Follows ds n) : ∃ g, (draftBefore ds base n).closed.flatMap Group.rules ++ g.rules =
        (List.range n).filterMap (ruleAt ds) ∧
      ((draftBefore ds base n).position = .header g ∧ ¬Settled ds n ∨
        (draftBefore ds base n).position = .body g ∧ Settled ds n) := by
  have hTracks := tracks_draftBefore base hn
  have hRules := congrArg (List.flatMap Group.rules) hTracks.groups_eq
  rw [firstGroups_rules, Draft.groups_eq_append, List.flatMap_append] at hRules
  cases hPosition : (draftBefore ds base n).position with
  | outside =>
    simp only [Tracks, hPosition] at hTracks
    exact absurd hFollows hTracks.2.2
  | header g =>
    simp only [Tracks, hPosition] at hTracks
    obtain ⟨m, -, -, -, hOpen⟩ := hTracks
    exact ⟨g, by simpa [hPosition, Position.groups] using hRules, .inl ⟨rfl, hOpen⟩⟩
  | body g =>
    simp only [Tracks, hPosition] at hTracks
    obtain ⟨m, -, -, -, hSettled⟩ := hTracks
    exact ⟨g, by simpa [hPosition, Position.groups] using hRules, .inr ⟨rfl, hSettled⟩⟩

/-- The groups of the directives before a position and of others behind it. -/
theorem ofDirectives_groups_take (base : Option Url) (ds : List Directive) (n : Nat)
    (rest : List Directive) :
    (RuleSet.ofDirectives base (ds.take n ++ rest)).groups =
      (draftBefore ds base n).closed ++ (draftBefore ds base n).position.read rest := by
  rw [RuleSet.ofDirectives, List.foldl_append]
  exact Draft.groups_foldl base _ _

/-- The groups of a file with some directive at a position, from the draft before it. -/
theorem ofDirectives_groups_set (base : Option Url) {n : Nat} (hn : n < ds.length)
    (d : Directive) : (RuleSet.ofDirectives base (ds.set n d)).groups =
      (draftBefore ds base n).closed ++
        (draftBefore ds base n).position.read (d :: ds.drop (n + 1)) := by
  rw [List.set_eq_take_append_cons_drop, if_pos hn, ofDirectives_groups_take]

variable {n : Nat} {verdict : Verdict} {value : String}

/-- What a file with a rule and the file with that rule damaged come to, from the draft before it:
the rule ends a header, and the damaged line leaves the draft where it was. -/
theorem exists_read_damaged (base : Option Url) (hRule : ds[n]? = some (.rule verdict value))
    (hFollows : Follows ds n) (field text : String) :
      ∃ (left : List Group) (g : Group) (p : Position),
      left.flatMap Group.rules ++ g.rules = (List.range n).filterMap (ruleAt ds) ∧
      (RuleSet.ofDirectives base ds).groups =
        left ++ (Position.body (g.extend (.rule verdict value))).read (ds.drop (n + 1)) ∧
      (RuleSet.ofDirectives base (ds.set n (.invalid field text))).groups =
        left ++ p.read (ds.drop (n + 1)) ∧
      (p = .header g ∧ ¬Settled ds n ∨ p = .body g ∧ Settled ds n) := by
  obtain ⟨hn, hGet⟩ := List.getElem?_eq_some_iff.mp hRule
  obtain ⟨g, hEarlier, hPosition⟩ := exists_position_eq base (Nat.le_of_lt hn) hFollows
  have hSame : ds.set n (.rule verdict value) = ds := by rw [← hGet, List.set_getElem_self]
  have hOriginal := ofDirectives_groups_set base hn (.rule verdict value)
  rw [hSame] at hOriginal
  refine ⟨_, g, (draftBefore ds base n).position, hEarlier, ?_, ?_, hPosition⟩
  · rw [hOriginal]
    rcases hPosition with ⟨hHeader, -⟩ | ⟨hBody, -⟩
    · simp [hHeader, Position.read, Position.completed, Position.next, Directive.rule?]
    · simp [hBody, Position.read, Position.completed, Position.next, Directive.agent?]
  · obtain ⟨hNext, hCompleted⟩ := Position.next_of_idle (d := .invalid field text) rfl rfl rfl
      (draftBefore ds base n).position
    rw [ofDirectives_groups_set base hn, Position.read, hNext, hCompleted, List.nil_append]

/-- A damaged rule that separates nothing is lost alone. -/
theorem losesRule_of_not_separates (base : Option Url) (hRule : ds[n]? = some (.rule verdict value))
    (hFollows : Follows ds n) (field text : String) (h : ¬Separates ds n) :
    LosesRule ((List.range n).filterMap (ruleAt ds)) (Rule.ofValue verdict value)
      (RuleSet.ofDirectives base ds).groups
      (RuleSet.ofDirectives base (ds.set n (.invalid field text))).groups := by
  obtain ⟨left, g, p, hEarlier, hOriginal, hDamaged, hPosition⟩ :=
    exists_read_damaged base hRule hFollows field text
  rw [separates_iff hFollows, not_and] at h
  have hBody : p.read (ds.drop (n + 1)) = (Position.body g).read (ds.drop (n + 1)) := by
    rcases hPosition with ⟨rfl, hOpen⟩ | ⟨rfl, -⟩
    · exact Position.read_header_of_not_agentFirst (h hOpen) g
    · rfl
  rw [Position.read_body, extendBy_rule] at hOriginal
  rw [hBody, Position.read_body] at hDamaged
  refine ⟨left, _, _, g.rules, _, hEarlier, hOriginal, ?_⟩
  rw [hDamaged, ← rules_extendBy]

/-- Where a damaged rule separates two groups they are joined. -/
theorem joinsGroups_of_separates (base : Option Url) (hRule : ds[n]? = some (.rule verdict value))
    (hFollows : Follows ds n) (field text : String) (h : Separates ds n) :
    JoinsGroups ((List.range n).filterMap (ruleAt ds)) (Rule.ofValue verdict value)
      (RuleSet.ofDirectives base ds).groups
      (RuleSet.ofDirectives base (ds.set n (.invalid field text))).groups := by
  obtain ⟨left, g, p, hEarlier, hOriginal, hDamaged, hPosition⟩ :=
    exists_read_damaged base hRule hFollows field text
  obtain ⟨hOpen, hAgentFirst⟩ := (separates_iff hFollows).mp h
  obtain ⟨idle, lines, right, hIdle, hRead⟩ := Position.exists_read_of_agentFirst hAgentFirst
  obtain ⟨rfl, -⟩ := hPosition.resolve_right fun hBody => hOpen hBody.2
  have hNoRules : idle.filterMap Directive.rule? = [] := List.filterMap_eq_nil_iff.mpr hIdle
  have hRules : (g.extendBy idle).rules = g.rules := by
    rw [rules_extendBy, hNoRules, List.append_nil]
  rw [(hRead _).2, extendBy_rule, hNoRules, ← hRules] at hOriginal
  rw [(hRead g).1, Group.extendBy_eq_join _ lines] at hDamaged
  exact ⟨left, right, g.extendBy idle, Group.empty.extendBy lines, by rw [hRules, hEarlier],
    hOriginal, hDamaged⟩

/-- Damage to a rule takes that rule alone from the groups, and then no crawler obeys a rule that it
did not obey before, if and only if the rule is not the only one between two agents.  If it is, the
group of the first agent, without the rule, and the group of the second become one. -/
theorem ofDirectives_damaged (base : Option Url) (hRule : ds[n]? = some (.rule verdict value))
    (hFollows : Follows ds n) (field text : String) :
    let groups := (RuleSet.ofDirectives base ds).groups
    let damaged := (RuleSet.ofDirectives base (ds.set n (.invalid field text))).groups
    let earlier := (List.range n).filterMap (ruleAt ds)
    let rule := Rule.ofValue verdict value
    (LosesRule earlier rule groups damaged ↔ ¬Separates ds n) ∧
    (¬Separates ds n → ∀ (s : Settings) (names : List String) (r : Rule),
      (∃ g, s.Obeys names damaged g ∧ r ∈ g.rules) → ∃ g, s.Obeys names groups g ∧ r ∈ g.rules) ∧
    (Separates ds n → JoinsGroups earlier rule groups damaged) := by
  intro groups damaged earlier rule
  have hLoses := losesRule_of_not_separates base hRule hFollows field text
  have hJoins := joinsGroups_of_separates base hRule hFollows field text
  refine ⟨⟨fun hLost hSeparates => ?_, hLoses⟩, fun hNot s names r => (hLoses hNot).obeyed, hJoins⟩
  exact Nat.ne_of_lt (hJoins hSeparates).length_lt hLost.length_eq

end

/-- A file with a rule for each of two crawlers. -/
def twoCrawlers : List Directive :=
  [.userAgent "a", .rule .disallow "/x", .userAgent "b", .rule .disallow "/y"]

theorem ofDirectives_damaged_last : twoCrawlers[3]? = some (.rule .disallow "/y") ∧
    Follows twoCrawlers 3 ∧ LosesRule [Rule.ofValue .disallow "/x"] (Rule.ofValue .disallow "/y")
      (RuleSet.ofDirectives none twoCrawlers).groups
      (RuleSet.ofDirectives none (twoCrawlers.set 3 (.invalid "Disallow" "/\uFFFD"))).groups := by
  have hFollows : Follows twoCrawlers 3 := by decide
  have hLast : ¬Separates twoCrawlers 3 := by
    rintro ⟨i, j, -, hj, -, hAgent, -⟩
    have hEnd : twoCrawlers[j]? = none := List.getElem?_eq_none (by simp [twoCrawlers]; omega)
    simp [agentAt, hEnd] at hAgent
  exact ⟨rfl, hFollows, (ofDirectives_damaged none rfl hFollows "Disallow" "/\uFFFD").1.mpr hLast⟩

/-- With the rule for the first crawler damaged, the second's rule is for both. -/
theorem ofDirectives_damaged_between : Directive.ofLine "Disallow: /x\uFFFD".toList =
      .invalid "Disallow" "/x\uFFFD" ∧
    ¬LosesRule [] (Rule.ofValue .disallow "/x") (RuleSet.ofDirectives none twoCrawlers).groups
      (RuleSet.ofDirectives none (twoCrawlers.set 1 (.invalid "Disallow" "/x\uFFFD"))).groups ∧
    (Settings.standard.selected ["a"] (RuleSet.ofDirectives none twoCrawlers).groups).flatMap
      Group.rules = [Rule.ofValue .disallow "/x"] ∧
    (Settings.standard.selected ["a"] (RuleSet.ofDirectives none
      (twoCrawlers.set 1 (.invalid "Disallow" "/x\uFFFD"))).groups).flatMap Group.rules =
        [Rule.ofValue .disallow "/y"] := by
  refine ⟨rfl, fun hLost => ?_, by decide, by decide⟩
  exact absurd hLost.length_eq (by decide)

end Layout

end RobotsTxt
