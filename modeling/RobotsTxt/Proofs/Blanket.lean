import RobotsTxt.Proofs.Coherence
import RobotsTxt.Proofs.Spelling

/-! Rules that leave no hole.  The rule that disallows the root matches every path, since the path of a
target starts at the root whatever the target is.  Where a crawler obeys that rule and none that
allows, the robots.txt is all that it may fetch. -/

namespace RobotsTxt

/-- The pattern of the root matches the paths that start with a slash. -/
theorem Pattern.matchesNormal_root (path : List Char) :
    (ofText "/").matchesNormal path = true ↔ path.head? = some '/' := by
  have hRoot : (ofText "/").literals = [['/']] ∧ (ofText "/").anchored = false := by decide
  rw [matchesNormal, hRoot.1, hRoot.2]
  cases path with
  | nil => simp [List.isPrefixOf?]
  | cons c path =>
    by_cases hc : c = '/'
    · subst hc
      simp [List.isPrefixOf?, matchRest]
    · simp [List.isPrefixOf?, hc, Ne.symm hc]

/-- The rule that disallows all paths. -/
def Rule.blanket : Rule := Rule.ofValue .disallow "/"

namespace Target

/-- The normal form of the path of a target starts at the root. -/
theorem head?_normalPath [Domains] (target : String) : (normalPath target).head? = some '/' := by
  obtain ⟨rest, hPath⟩ := exists_pathAndQuery_eq target
  rw [normalPath, hPath, Percent.normalize_cons_of_isPlain (by decide)]
  rfl

end Target

namespace Settings

variable {s : Settings} {names : List String} {groups : List Group}

/-- A crawler is under a blanket where it obeys the rule that disallows all paths, and no rule that
allows. -/
structure Blanket (s : Settings) (names : List String) (groups : List Group) : Prop where
  root : ∃ g, s.Obeys names groups g ∧ Rule.blanket ∈ g.rules
  only : ∀ g, s.Obeys names groups g → ∀ r ∈ g.rules, r.verdict = .disallow

theorem Blanket.not_allowed [Domains] (h : s.Blanket names groups) (target : String) :
    ¬Rule.Allowed (Target.normalPath target) fun r => ∃ g, s.Obeys names groups g ∧ r ∈ g.rules := by
  rintro (hNone | ⟨r, ⟨g, hObeys, hRule⟩, -, hAllows, -⟩)
  · obtain ⟨g, hObeys, hRoot⟩ := h.root
    apply hNone Rule.blanket ⟨g, hObeys, hRoot⟩
    have hPattern : Rule.blanket.pattern = Pattern.ofText "/" := rfl
    rw [Rule.Matches, hPattern, Pattern.matchesNormal_root]
    exact Target.head?_normalPath target
  · simp [Rule.allows, h.only g hObeys r hRule] at hAllows

/-- Under a blanket a crawler may fetch the robots.txt, unless a crawl delay is as good as a refusal,
and nothing else. -/
theorem Blanket.permits_iff [Domains] (h : s.Blanket names groups) (target : String) :
    s.Permits names groups target ↔
      ¬s.Refused names groups ∧ Target.pathAndQuery target = "/robots.txt" := by
  constructor
  · rintro (hNone | ⟨hRefused, hRobots | hAllowed⟩)
    · obtain ⟨g, hObeys, -⟩ := h.root
      exact absurd hObeys (hNone g)
    · exact ⟨hRefused, hRobots⟩
    · exact absurd hAllowed (h.not_allowed target)
  · rintro ⟨hRefused, hRobots⟩
    exact .inr ⟨hRefused, .inl hRobots⟩

/-- Evaluation for a crawler under a blanket gives a policy that does not allow everything.  Unless it
allows nothing, which it does where a crawl delay is as good as a refusal, it allows exactly the
targets whose path is that of the robots.txt.  The path of every target starts with a slash. -/
theorem evaluate_blanket [Domains] {given ready : List String} {rules : RuleSet}
    (hNames : Agent.prepare s.mode given = .ok ready) (h : s.Blanket ready rules.groups) :
    ∃ p, s.evaluate given rules = .ok p ∧ p.allowsAll = false ∧
      (p.allowsNone = true ↔ s.Refused ready rules.groups) ∧
      ∀ target, (∃ rest, (Target.pathAndQuery target).toList = '/' :: rest) ∧
        (p.allows target = true ↔
          p.allowsNone = false ∧ Target.pathAndQuery target = "/robots.txt") := by
  have hReflects : s.Reflects ready rules (s.policy ready rules) := reflects_policy rules
  have hBound : (s.policy ready rules).allowsAll = false := by
    obtain ⟨g, hObeys, -⟩ := h.root
    rw [Bool.eq_false_iff, ne_eq, hReflects.unbound]
    exact fun hNone => hNone g hObeys
  refine ⟨s.policy ready rules, evaluate_of_prepare hNames rules, hBound, hReflects.refused,
    fun target => ⟨Target.exists_pathAndQuery_eq target, ?_⟩⟩
  rw [policy_allows_iff, h.permits_iff, ← hReflects.refused, Bool.not_eq_true]

/-- A file that shuts out everyone but one crawler. -/
def shutRules : RuleSet :=
  RuleSet.ofDirectives none [.userAgent "*", .rule .disallow "/a*", .rule .disallow "/",
    .userAgent "Other", .rule .allow "/"]

theorem blanket_shutRules : standard.Blanket ["examplebot"] shutRules.groups := by
  have hRules : (standard.selected ["examplebot"] shutRules.groups).flatMap Group.rules =
      [.ofValue .disallow "/a*", .blanket] := by decide +kernel
  have hDisallow : ∀ r ∈ [Rule.ofValue .disallow "/a*", .blanket], r.verdict = .disallow := by decide
  constructor
  · rw [← mem_selected_rules, hRules]
    decide
  · intro g hObeys r hRule
    have hMem := mem_selected_rules.mpr ⟨g, hObeys, hRule⟩
    exact hDisallow r (hRules ▸ hMem)

/-- URLs of all kinds and texts that are none are refused, but not a text that comes to the path of
the robots.txt. -/
theorem evaluate_blanket_shut :
    Agent.prepare .exact ["examplebot"] = .ok ["examplebot"] ∧
      standard.Blanket ["examplebot"] shutRules.groups ∧
      ∃ p, standard.evaluate ["examplebot"] shutRules = .ok p ∧ p.allowsNone = false ∧
        (∀ target ∈ ["mailto:a@b", "https://h?q", ""], ¬p.allows target = true) ∧
        p.allows "robots.txt" = true := by
  have hNames : Agent.prepare .exact ["examplebot"] = .ok ["examplebot"] := by decide
  obtain ⟨p, hEvaluate, -, hRefused, hTargets⟩ := evaluate_blanket hNames blanket_shutRules
  have hNone : p.allowsNone = false := by
    rw [Bool.eq_false_iff, ne_eq, hRefused, ← refuses_iff]
    decide +kernel
  have hAllows : ∀ target, p.allows target = true ↔ Target.pathAndQuery target = "/robots.txt" := by
    intro target
    rw [(hTargets target).2, and_iff_right hNone]
  have hOthers : ∀ target ∈ ["mailto:a@b", "https://h?q", ""],
      Target.pathAndQuery target ≠ "/robots.txt" := by decide +kernel
  exact ⟨hNames, blanket_shutRules, p, hEvaluate, hNone,
    fun target hTarget => mt (hAllows target).mp (hOthers target hTarget),
    (hAllows _).mpr (by decide +kernel)⟩

end Settings

end RobotsTxt
