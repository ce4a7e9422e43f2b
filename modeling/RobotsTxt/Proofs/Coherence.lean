import RobotsTxt.Proofs.Decision

/-! What the parts of a policy have to do with each other.  Rules and a crawl delay come only with a
policy that allows a part of the host, and visits are put off only where nothing is allowed.  A policy
that was evaluated tells the three ways of reading groups apart: it allows everything if the crawler
obeys none of them, and nothing if their delay is as good as a refusal. -/

namespace RobotsTxt

namespace Policy

/-- The policies that a crawler can come by. -/
inductive Reachable : Policy → Prop where
  | allowAll : Reachable allowAll
  | disallowAll : Reachable disallowAll
  | default : Reachable default
  | ofStatus {status : Nat} {p : Policy} (h : ofStatus status = .ok p) : Reachable p
  | evaluated {s : Settings} {given : List String} {rules : RuleSet} {p : Policy}
      (h : s.evaluate given rules = .ok p) : Reachable p

/-- The parts of a policy fit together. -/
structure Coherent [Domains] (p : Policy) : Prop where
  decided : p.rules ≠ [] ∨ p.crawlDelay ≠ none → p.allowsAll = false ∧ p.allowsNone = false
  deferred : p.defersVisits = true → p.allowsNone = true
  allowed : p.allowsAll = true → ∀ target, p.allows target = true
  refused : p.allowsNone = true → ∀ target, p.allows target = false

variable [Domains] {p : Policy}

/-- Rules and a delay come with no other access than theirs, so only the visits are in question. -/
theorem coherent_of_deferred (h : p.defersVisits = true → p.allowsNone = true) : p.Coherent where
  decided hSome := by
    cases hAccess : p.access <;> simp_all [rules, crawlDelay, allowsAll, allowsNone]
  deferred := h
  allowed hAll target := by
    have hAccess : p.access = .all := by simpa [allowsAll] using hAll
    rw [allows, hAccess]
  refused hNone target := by
    have hAccess : p.access = .none := by simpa [allowsNone] using hNone
    rw [allows, hAccess]

theorem coherent_of_ofStatus {status : Nat} (h : ofStatus status = .ok p) : p.Coherent := by
  refine coherent_of_deferred ?_
  unfold ofStatus at h
  split at h
  · obtain rfl := Except.ok.inj h
    exact fun _ => rfl
  · split at h
    · obtain rfl := Except.ok.inj h
      exact fun hDefers => absurd hDefers (by decide)
    · contradiction

end Policy

namespace Settings

variable {s : Settings} {names : List String}

theorem evaluate_eq_ok_iff {given : List String} {rules : RuleSet} {p : Policy} :
    s.evaluate given rules = .ok p ↔
      ∃ ready, Agent.prepare s.mode given = .ok ready ∧ s.policy ready rules = p := by
  rw [evaluate]
  cases Agent.prepare s.mode given <;> simp [Except.map]

/-- What a policy says of the groups that it was read off. -/
structure Reflects (s : Settings) (names : List String) (rules : RuleSet) (p : Policy) : Prop where
  sitemaps : p.sitemaps = rules.sitemaps
  visits : p.defersVisits = false
  unbound : p.allowsAll = true ↔ ∀ g, ¬s.Obeys names rules.groups g
  refused : p.allowsNone = true ↔ s.Refused names rules.groups
  delayed : ∀ ms, p.crawlDelay = some ms ↔
    ¬s.Refused names rules.groups ∧ ∃ d, s.FirstDelay names rules.groups d ∧ d.milliseconds = ms
  bounded : ∀ max, s.maxCrawlDelay = some max → ∀ ms, p.crawlDelay = some ms → ms < max
  ruled : ∀ r, r ∈ p.rules ↔
    ¬s.Refused names rules.groups ∧ ∃ g, s.Obeys names rules.groups g ∧ r ∈ g.rules

theorem policy_crawlDelay_iff (rules : RuleSet) (ms : Nat) :
    (s.policy names rules).crawlDelay = some ms ↔ ¬s.Refused names rules.groups ∧
      ∃ d, s.FirstDelay names rules.groups d ∧ d.milliseconds = ms := by
  rw [policy_crawlDelay_eq, ← refuses_iff, ← crawlDelay_eq_some_iff]
  split <;> simp_all

theorem mem_policy_rules_iff (rules : RuleSet) (r : Rule) :
    r ∈ (s.policy names rules).rules ↔ ¬s.Refused names rules.groups ∧
      ∃ g, s.Obeys names rules.groups g ∧ r ∈ g.rules := by
  rw [Policy.rules, policy]
  rcases s.access_cases names rules.groups with
    ⟨hNone, hAccess⟩ | ⟨hRefused, hAccess⟩ | ⟨-, hRefused, hAccess⟩
  · simp [hAccess, hNone]
  · simp [hAccess, hRefused]
  · simp [hAccess, hRefused, mem_selected]

/-- The delay that a policy gives is below the limit. -/
theorem lt_of_policy_crawlDelay {rules : RuleSet} {max ms : Nat} (hMax : s.maxCrawlDelay = some max)
    (hDelay : (s.policy names rules).crawlDelay = some ms) : ms < max := by
  obtain ⟨hRefused, d, hFirst, rfl⟩ := (policy_crawlDelay_iff rules ms).mp hDelay
  by_contra hLe
  exact hRefused ⟨max, d, hMax, hFirst, by omega⟩

theorem reflects_policy (rules : RuleSet) : s.Reflects names rules (s.policy names rules) where
  sitemaps := rfl
  visits := rfl
  unbound := by
    rw [Policy.allowsAll, policy, decide_eq_true_eq]
    rcases s.access_cases names rules.groups with
      ⟨hNone, hAccess⟩ | ⟨hRefused, hAccess⟩ | ⟨hSome, -, hAccess⟩
    · simp [hAccess, hNone]
    · simp [hAccess, hRefused.exists_obeys]
    · simp [hAccess, hSome]
  refused := by
    rw [Policy.allowsNone, policy, decide_eq_true_eq]
    rcases s.access_cases names rules.groups with
      ⟨hNone, hAccess⟩ | ⟨hRefused, hAccess⟩ | ⟨-, hRefused, hAccess⟩
    · have hNot : ¬s.Refused names rules.groups := fun h => not_exists.mpr hNone h.exists_obeys
      simp [hAccess, hNot]
    · simp [hAccess, hRefused]
    · simp [hAccess, hRefused]
  delayed := policy_crawlDelay_iff rules
  bounded _ hMax _ := lt_of_policy_crawlDelay hMax
  ruled := mem_policy_rules_iff rules

end Settings

namespace Policy

/-- Every policy that a crawler can come by is coherent.  Evaluation for valid names gives one, and one
that was evaluated reflects the rule set that it was evaluated for. -/
theorem reachable_coherent [Domains] : (∀ p : Policy, p.Reachable → p.Coherent) ∧
    ∀ (s : Settings) (given : List String) (rules : RuleSet),
      (∀ ready, Agent.prepare s.mode given = .ok ready → ∃ p, s.evaluate given rules = .ok p) ∧
      ∀ p, s.evaluate given rules = .ok p →
        ∃ ready, Agent.prepare s.mode given = .ok ready ∧ s.Reflects ready rules p := by
  refine ⟨fun p hReachable => ?_, fun s given rules => ⟨fun ready hNames => ?_, fun p h => ?_⟩⟩
  · cases hReachable with
    | allowAll => exact coherent_of_deferred (by decide)
    | disallowAll => exact coherent_of_deferred (by decide)
    | default => exact coherent_of_deferred (by decide)
    | ofStatus h => exact coherent_of_ofStatus h
    | evaluated h =>
      obtain ⟨ready, -, rfl⟩ := Settings.evaluate_eq_ok_iff.mp h
      exact coherent_of_deferred fun hDefers => absurd hDefers Bool.false_ne_true
  · exact ⟨_, Settings.evaluate_of_prepare hNames rules⟩
  · obtain ⟨ready, hNames, rfl⟩ := Settings.evaluate_eq_ok_iff.mp h
    exact ⟨ready, hNames, Settings.reflects_policy rules⟩

/-- A file whose delay is at the limit of a second. -/
def secondlyRules : RuleSet :=
  RuleSet.ofDirectives none [.sitemap "https://h/s", .userAgent "*", .crawlDelay 1,
    .rule .disallow "/x"]

theorem reachable_coherent_secondly :
    (∃ p, ofStatus 503 = .ok p ∧ p.defersVisits = true ∧ p.Coherent) ∧
    ∃ p, { Settings.standard with maxCrawlDelay := some 1000 }.evaluate ["a"] secondlyRules = .ok p ∧
      p.allowsNone = true ∧ p.Coherent ∧ ∃ ready, Agent.prepare .exact ["a"] = .ok ready ∧
        { Settings.standard with maxCrawlDelay := some 1000 }.Reflects ready secondlyRules p := by
  have hStatus : ofStatus 503 = .ok { disallowAll with defersVisits := true } := rfl
  have hEvaluate : { Settings.standard with maxCrawlDelay := some 1000 }.evaluate ["a"]
      secondlyRules = .ok { disallowAll with sitemaps := ["https://h/s"] } := by decide +kernel
  exact ⟨⟨_, hStatus, rfl, reachable_coherent.1 _ (.ofStatus hStatus)⟩, _, hEvaluate, rfl,
    reachable_coherent.1 _ (.evaluated hEvaluate), (reachable_coherent.2 _ _ _).2 _ hEvaluate⟩

end Policy

end RobotsTxt
