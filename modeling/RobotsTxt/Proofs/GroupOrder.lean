import RobotsTxt.Proofs.Decision
import RobotsTxt.Proofs.Sections

/-! The order of the groups in a file.  A file made of blocks, each of which starts with an agent and
has a rule behind its last agent, has the groups of one block after the other; so blocks in another
order give the same groups in another order.  What a crawler may fetch depends only on which groups
there are. -/

namespace RobotsTxt

namespace Layout

/-- A section that starts with an agent and has a rule behind its last agent. -/
def IsBlock (ds : List Directive) : Prop :=
  (agentAt ds 0).isSome = true ∧ Settled ds ds.length

instance (ds : List Directive) : Decidable (IsBlock ds) :=
  inferInstanceAs (Decidable ((agentAt ds 0).isSome = true ∧ Settled ds ds.length))

theorem IsBlock.fresh_append {ds : List Directive} (h : IsBlock ds) (more : List Directive) :
    Directive.Fresh (ds ++ more) := by
  cases ds with
  | nil => simp [IsBlock, agentAt] at h
  | cons d ds => exact .inl (by simpa [agentAt] using h.1)

theorem fresh_flatten {blocks : List (List Directive)} (h : ∀ ds ∈ blocks, IsBlock ds) :
    Directive.Fresh blocks.flatten := by
  cases blocks with
  | nil => trivial
  | cons ds blocks => exact (h ds List.mem_cons_self).fresh_append blocks.flatten

/-- The groups of blocks are those of each, block after block. -/
theorem ofDirectives_groups_flatten [Domains] (base : Option Url) {blocks : List (List Directive)}
    (h : ∀ ds ∈ blocks, IsBlock ds) : (RuleSet.ofDirectives base blocks.flatten).groups =
      blocks.flatMap fun ds => (RuleSet.ofDirectives base ds).groups := by
  induction blocks with
  | nil => rfl
  | cons ds blocks ih =>
    obtain ⟨hFirst, hRest⟩ := List.forall_mem_cons.mp h
    rw [List.flatten_cons, ofDirectives_groups_append base hFirst.2 (fresh_flatten hRest), ih hRest,
      List.flatMap_cons]

end Layout

namespace Settings

section

variable {s : Settings} {names : List String} {groups others : List Group}
  (h : groups.Perm others)

include h

theorem unnamed_perm : s.Unnamed names others ↔ s.Unnamed names groups := by
  simp only [Unnamed, h.mem_iff]

theorem obeys_perm {g : Group} : s.Obeys names others g ↔ s.Obeys names groups g := by
  simp only [Obeys, h.mem_iff, unnamed_perm h]

theorem selected_perm : (s.selected names others).Perm (s.selected names groups) := by
  have hWildcard : s.byWildcard names others = s.byWildcard names groups := by
    rw [Bool.eq_iff_iff, byWildcard_iff, byWildcard_iff, unnamed_perm h]
  have hObeyed : s.isObeyed names others = s.isObeyed names groups := by
    funext g
    simp only [isObeyed, hWildcard]
  rw [selected_eq_filter, selected_eq_filter, hObeyed]
  exact (h.filter _).symm

/-- Without a limit on crawl delays, the order of the groups does not change what is permitted. -/
theorem permits_perm [Domains] (hMax : s.maxCrawlDelay = none) {target : String} :
    s.Permits names others target ↔ s.Permits names groups target := by
  simp only [Permits, Refused, hMax, obeys_perm h]
  simp

end

theorem policy_rules {s : Settings} (hMax : s.maxCrawlDelay = none) (names : List String)
    (rules : RuleSet) : (s.policy names rules).rules =
      Rule.inPrecedence ((s.selected names rules.groups).flatMap Group.rules) := by
  rw [policy, Policy.rules, access_of_unlimited hMax]
  by_cases hEmpty : s.selected names rules.groups = []
  · simp [hEmpty, Rule.inPrecedence]
  · simp [hEmpty]

/-- Blocks of a file may stand in any order: the policies for a crawler allow the same targets, and
they have the same rules up to their order. -/
theorem evaluate_blocks_perm [Domains] {s : Settings} (hMax : s.maxCrawlDelay = none)
    {given ready : List String} (hNames : Agent.prepare s.mode given = .ok ready)
    (base : Option Url) {blocks others : List (List Directive)}
    (hBlocks : ∀ ds ∈ blocks, Layout.IsBlock ds) (hPerm : blocks.Perm others) :
    ∃ policy other,
      s.evaluate given (RuleSet.ofDirectives base blocks.flatten) = .ok policy ∧
      s.evaluate given (RuleSet.ofDirectives base others.flatten) = .ok other ∧
      (∀ target, other.allows target = policy.allows target) ∧ other.rules.Perm policy.rules := by
  have hOthers : ∀ ds ∈ others, Layout.IsBlock ds := fun ds hds => hBlocks ds (hPerm.mem_iff.mpr hds)
  have hGroups : (RuleSet.ofDirectives base blocks.flatten).groups.Perm
      (RuleSet.ofDirectives base others.flatten).groups := by
    rw [Layout.ofDirectives_groups_flatten base hBlocks,
      Layout.ofDirectives_groups_flatten base hOthers]
    exact hPerm.flatMap_right _
  refine ⟨_, _, evaluate_of_prepare hNames _, evaluate_of_prepare hNames _, fun target => ?_, ?_⟩
  · rw [Bool.eq_iff_iff, policy_allows_iff, policy_allows_iff, permits_perm hGroups hMax]
  · rw [policy_rules hMax, policy_rules hMax]
    refine (Rule.inPrecedence_perm _).trans (.trans ?_ (Rule.inPrecedence_perm _).symm)
    exact (selected_perm hGroups).flatMap_right _

/-- A group for everyone, with a sitemap and a line of no known field in its header. -/
def everyoneBlock : List Directive :=
  [.userAgent "*", .sitemap "https://a.example/map.xml", .unknown "noindex" "/", .rule .disallow "/x"]

/-- A group for one crawler, with a blank agent and a delay behind its rule. -/
def crawlerBlock : List Directive :=
  [.userAgent "BotB", .rule .allow "/x", .userAgent " ", .crawlDelay 3]

theorem evaluate_blocks_perm_swapped :
    Agent.prepare .exact ["botb"] = .ok ["botb"] ∧
    (∀ ds ∈ [everyoneBlock, crawlerBlock], Layout.IsBlock ds) ∧
    [everyoneBlock, crawlerBlock].Perm [crawlerBlock, everyoneBlock] ∧
    ∃ policy other,
      { standard with maxCrawlDelay := none }.evaluate ["botb"]
        (RuleSet.ofDirectives none [everyoneBlock, crawlerBlock].flatten) = .ok policy ∧
      { standard with maxCrawlDelay := none }.evaluate ["botb"]
        (RuleSet.ofDirectives none [crawlerBlock, everyoneBlock].flatten) = .ok other ∧
      (∀ target, other.allows target = policy.allows target) ∧ other.rules.Perm policy.rules := by
  have hNames : Agent.prepare .exact ["botb"] = .ok ["botb"] := by decide
  have hBlocks : ∀ ds ∈ [everyoneBlock, crawlerBlock], Layout.IsBlock ds := by
    simp only [List.forall_mem_cons, List.not_mem_nil, false_imp_iff, implies_true, and_true]
    decide +kernel
  have hPerm : [everyoneBlock, crawlerBlock].Perm [crawlerBlock, everyoneBlock] := .swap ..
  exact ⟨hNames, hBlocks, hPerm,
    evaluate_blocks_perm (s := { standard with maxCrawlDelay := none }) rfl hNames none hBlocks
      hPerm⟩

end Settings

end RobotsTxt
