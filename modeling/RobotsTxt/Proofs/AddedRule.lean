import RobotsTxt.Proofs.Damage
import RobotsTxt.Proofs.Glob
import RobotsTxt.Proofs.Tally

/-! One more rule in a file.  Behind another rule it stands in the body of a group, so the groups are
the same but for that rule, which crawlers obey them is the same, and so are their crawl delays.  What
they may fetch changes one way only: an allowing rule takes no permission away, a disallowing rule
gives none, and a rule without a pattern does neither. -/

namespace RobotsTxt

namespace Rule

variable {path : List Char} {rules more : Rule → Prop} {r : Rule}

/-- A set of rules has those of another, and beside them at most `r`. -/
structure Adds (r : Rule) (rules more : Rule → Prop) : Prop where
  keeps : ∀ x, rules x → more x
  news : ∀ x, more x → rules x ∨ x = r

theorem Allowed.add (h : Adds r rules more) (hAllow : r.allows = true)
    (hAllowed : Allowed path rules) : Allowed path more := by
  rcases hAllowed with hNone | ⟨a, ha, hm, hFirst, hLe⟩
  · by_cases hr : more r ∧ r.Matches path
    · refine .inr ⟨r, hr.1, hr.2, hAllow, fun x hx hxm => ?_⟩
      rcases h.news x hx with hOld | rfl
      · exact absurd hxm (hNone x hOld)
      · exact Nat.le_refl _
    · refine .inl fun x hx hxm => ?_
      rcases h.news x hx with hOld | rfl
      · exact hNone x hOld hxm
      · exact hr ⟨hx, hxm⟩
  · by_cases hr : more r ∧ r.Matches path ∧ a.pattern.specificity ≤ r.pattern.specificity
    · refine .inr ⟨r, hr.1, hr.2.1, hAllow, fun x hx hxm => ?_⟩
      rcases h.news x hx with hOld | rfl
      · exact Nat.le_trans (hLe x hOld hxm) hr.2.2
      · exact Nat.le_refl _
    · refine .inr ⟨a, h.keeps a ha, hm, hFirst, fun x hx hxm => ?_⟩
      rcases h.news x hx with hOld | rfl
      · exact hLe x hOld hxm
      · by_contra hNot
        exact hr ⟨hx, hxm, by omega⟩

/-- Without a rule that disallows, or that is as little specific as rules that all allow, no less is
allowed. -/
theorem Allowed.of_add (h : Adds r rules more)
    (hLow : r.allows = true → r.pattern.specificity = 0 ∧
      ∀ x, rules x → x.pattern.specificity = 0 → x.allows = true)
    (hAllowed : Allowed path more) : Allowed path rules := by
  rcases hAllowed with hNone | ⟨a, ha, hm, hAllow, hLe⟩
  · exact .inl fun x hx => hNone x (h.keeps x hx)
  · rcases h.news a ha with hOld | rfl
    · exact .inr ⟨a, hOld, hm, hAllow, fun x hx => hLe x (h.keeps x hx)⟩
    · obtain ⟨hZero, hAllows⟩ := hLow hAllow
      have hLeast : ∀ x, rules x → x.Matches path → x.pattern.specificity = 0 :=
        fun x hx hxm => Nat.le_zero.mp (hZero ▸ hLe x (h.keeps x hx) hxm)
      by_cases hSome : ∃ x, rules x ∧ x.Matches path
      · obtain ⟨x, hx, hxm⟩ := hSome
        refine .inr ⟨x, hx, hxm, hAllows x hx (hLeast x hx hxm), fun y hy hym => ?_⟩
        rw [hLeast y hy hym]
        exact Nat.zero_le _
      · exact .inl fun x hx hxm => hSome ⟨x, hx, hxm⟩

end Rule

namespace Settings

variable [Domains] {s : Settings} {names : List String} {groups others : List Group}

/-- Where the same delays count, permission passes from one set of rules to another. -/
theorem Permits.of_allowed {target : String} (h : s.Permits names groups target)
    (hNone : (∀ g, ¬s.Obeys names groups g) → ∀ g, ¬s.Obeys names others g)
    (hRefused : s.Refused names others → s.Refused names groups)
    (hAllowed : ∀ path, Rule.Allowed path (fun r => ∃ g, s.Obeys names groups g ∧ r ∈ g.rules) →
      Rule.Allowed path fun r => ∃ g, s.Obeys names others g ∧ r ∈ g.rules) :
    s.Permits names others target := by
  rcases h with h | ⟨hNot, hRules⟩
  · exact .inl (hNone h)
  · exact .inr ⟨mt hRefused hNot, hRules.imp_right (hAllowed _)⟩

end Settings

theorem Position.read_body_rule (g : Group) (verdict : Verdict) (value : String)
    (ds : List Directive) : (body g).read (.rule verdict value :: ds) =
      (body (g.extend (.rule verdict value))).read ds := by
  simp [read, completed, next, Directive.agent?]

namespace Layout

variable {ds : List Directive}

/-- The directives with one more behind a position. -/
def insertBehind (ds : List Directive) (n : Nat) (d : Directive) : List Directive :=
  ds.take (n + 1) ++ d :: ds.drop (n + 1)

theorem lt_length_of_ruleAt {i : Nat} (h : (ruleAt ds i).isSome = true) : i < ds.length := by
  by_contra hNot
  have hEnd : ds[i]? = none := List.getElem?_eq_none (by omega)
  simp [ruleAt, hEnd] at h

/-- Without a rule that stands directly behind another, the groups lose that rule alone. -/
theorem losesRule_insertBehind [Domains] (base : Option Url) {n : Nat}
    (hRule : (ruleAt ds n).isSome = true) (verdict : Verdict) (value : String) :
    LosesRule ((List.range (n + 1)).filterMap (ruleAt ds)) (Rule.ofValue verdict value)
      (RuleSet.ofDirectives base (insertBehind ds n (.rule verdict value))).groups
      (RuleSet.ofDirectives base ds).groups := by
  have hSettled := settled_succ_of_rule hRule (agentAt_eq_none_of_ruleAt hRule)
  have hFollows : Follows ds (n + 1) := follows_succ.mpr (.inl (follows_of_ruleAt hRule))
  obtain ⟨g, hEarlier, hPosition⟩ :=
    exists_position_eq base (n := n + 1) (lt_length_of_ruleAt hRule) hFollows
  obtain ⟨hBody, -⟩ := hPosition.resolve_left fun hHeader => hHeader.2 hSettled
  have hOriginal := ofDirectives_groups_take base ds (n + 1) (ds.drop (n + 1))
  have hEdited := ofDirectives_groups_take base ds (n + 1)
    (.rule verdict value :: ds.drop (n + 1))
  rw [List.take_append_drop, hBody, Position.read_body] at hOriginal
  rw [hBody, Position.read_body_rule, Position.read_body, extendBy_rule] at hEdited
  refine ⟨_, _, _, g.rules, _, hEarlier, hEdited, ?_⟩
  rw [hOriginal, ← rules_extendBy]

section

variable {earlier : List Rule} {r : Rule} {groups others : List Group} {s : Settings}
  {names : List String}

theorem LosesRule.forall₂ (h : LosesRule earlier r groups others) :
    List.Forall₂ (fun g h => h.audience = g.audience ∧ h.delays = g.delays) groups others := by
  obtain ⟨left, right, g, rules, more, -, rfl, rfl⟩ := h
  have hSame : ∀ l : List Group,
      List.Forall₂ (fun g h => h.audience = g.audience ∧ h.delays = g.delays) l l :=
    fun l => List.forall₂_same.mpr fun _ _ => ⟨rfl, rfl⟩
  exact List.rel_append (hSame left) (.cons ⟨rfl, rfl⟩ (hSame right))

theorem LosesRule.unnamed_iff (h : LosesRule earlier r groups others) :
    s.Unnamed names others ↔ s.Unnamed names groups := by
  rw [← Settings.byWildcard_iff, ← Settings.byWildcard_iff,
    Settings.byWildcard_congr (h.forall₂.imp fun _ _ hSame => hSame.1)]

theorem LosesRule.obeys_none_iff (h : LosesRule earlier r groups others) :
    (∀ g, ¬s.Obeys names others g) ↔ ∀ g, ¬s.Obeys names groups g := by
  rw [← Settings.selected_isEmpty_iff, ← Settings.selected_isEmpty_iff,
    Settings.isEmpty_selected_congr (h.forall₂.imp fun _ _ hSame => hSame.1)]

theorem LosesRule.crawlDelay_eq (h : LosesRule earlier r groups others) :
    s.crawlDelay names others = s.crawlDelay names groups :=
  Settings.crawlDelay_congr (h.forall₂.imp fun _ _ hSame => ⟨hSame.1, fun _ => hSame.2⟩)

theorem LosesRule.refused_iff (h : LosesRule earlier r groups others) :
    s.Refused names others ↔ s.Refused names groups := by
  rw [← Settings.refuses_iff, ← Settings.refuses_iff, h.crawlDelay_eq]

/-- A crawler obeys the rule that was lost and the rules that it still obeys, and no other. -/
theorem LosesRule.adds (h : LosesRule earlier r groups others) :
    Rule.Adds r (fun x => ∃ g, s.Obeys names others g ∧ x ∈ g.rules)
      fun x => ∃ g, s.Obeys names groups g ∧ x ∈ g.rules := by
  refine ⟨fun x hx => h.obeyed hx, ?_⟩
  rintro x ⟨h', ⟨hMem, hFor⟩, hx⟩
  rw [← h.unnamed_iff] at hFor
  obtain ⟨left, right, g, rules, more, -, rfl, rfl⟩ := h
  rcases List.mem_append.mp hMem with hLeft | hMem
  · exact .inl ⟨h', ⟨List.mem_append_left _ hLeft, hFor⟩, hx⟩
  · rcases List.mem_cons.mp hMem with rfl | hRight
    · have hGroup : s.Obeys names (left ++ { g with rules := rules ++ more } :: right)
          { g with rules := rules ++ more } := ⟨by simp, hFor⟩
      rcases List.mem_append.mp hx with hRules | hx
      · exact .inl ⟨_, hGroup, List.mem_append_left _ hRules⟩
      · rcases List.mem_cons.mp hx with rfl | hMore
        · exact .inr rfl
        · exact .inl ⟨_, hGroup, List.mem_append_right _ hMore⟩
    · exact .inl ⟨h', ⟨by simp [hRight], hFor⟩, hx⟩

/-- With an allowing rule back in, all is permitted that was. -/
theorem LosesRule.permits_of_allows [Domains] (h : LosesRule earlier r groups others)
    (hAllow : r.allows = true) {target : String} (hPermits : s.Permits names others target) :
    s.Permits names groups target :=
  hPermits.of_allowed h.obeys_none_iff.mp h.refused_iff.mpr fun _ => .add h.adds hAllow

/-- Without a rule that disallows, or that matches as little specifically as rules that all allow,
all is permitted that was. -/
theorem LosesRule.permits [Domains] (h : LosesRule earlier r groups others)
    (hLow : r.allows = true → r.pattern.specificity = 0 ∧
      ∀ g ∈ others, ∀ x ∈ g.rules, x.pattern.specificity = 0 → x.allows = true)
    {target : String} (hPermits : s.Permits names groups target) :
    s.Permits names others target := by
  refine hPermits.of_allowed h.obeys_none_iff.mpr h.refused_iff.mp fun _ => .of_add h.adds ?_
  intro hAllow
  obtain ⟨hZero, hOthers⟩ := hLow hAllow
  exact ⟨hZero, fun x ⟨g, hg, hx⟩ => hOthers g hg.1 x hx⟩

end

/-! ### Rules of a file -/

theorem specificity_ofValue (verdict : Verdict) (value : String) :
    (Rule.ofValue verdict value).pattern.specificity = (Text.trim value.toList).length := by
  rw [Rule.ofValue_eq, Pattern.specificity_ofText]

theorem exists_rule_of_ruleAt {i : Nat} {r : Rule} (h : ruleAt ds i = some r) :
    ∃ verdict value, ds[i]? = some (.rule verdict value) ∧ r = Rule.ofValue verdict value := by
  have hFollows : Follows ds i := follows_of_ruleAt (by simp [h])
  rw [ruleAt, if_pos hFollows, Option.bind_eq_some_iff] at h
  obtain ⟨d, hd, hRule⟩ := h
  cases d with
  | rule verdict value =>
    exact ⟨verdict, value, hd, (Option.some.inj hRule).symm.trans (Rule.ofValue_eq ..).symm⟩
  | _ => contradiction

/-- A rule of a file without a pattern allows. -/
theorem allows_of_specificity {g : Group} (hg : g ∈ groups ds) {r : Rule} (hr : r ∈ g.rules)
    (hZero : r.pattern.specificity = 0) : r.allows = true := by
  have hMem : r ∈ (List.range ds.length).filterMap (ruleAt ds) := by
    rw [← flatMap_rules]
    exact List.mem_flatMap.mpr ⟨g, hg, hr⟩
  obtain ⟨i, -, hRule⟩ := List.mem_filterMap.mp hMem
  obtain ⟨verdict, value, -, rfl⟩ := exists_rule_of_ruleAt hRule
  rw [specificity_ofValue, List.length_eq_zero_iff] at hZero
  simp [Rule.ofValue_eq, Rule.allows, hZero]

theorem sitemaps_insertBehind [Domains] (base : Option Url) (n : Nat) (verdict : Verdict)
    (value : String) :
    (RuleSet.ofDirectives base (insertBehind ds n (.rule verdict value))).sitemaps =
      (RuleSet.ofDirectives base ds).sitemaps := by
  have hNone : (Directive.rule verdict value).sitemap? base = none := rfl
  rw [ofDirectives_sitemaps, ofDirectives_sitemaps, insertBehind, List.filterMap_append,
    List.filterMap_cons_none hNone, ← List.filterMap_append, List.take_append_drop]

end Layout

namespace Settings

open Layout (ruleAt insertBehind)

/-- A rule inserted behind another moves the answers one way: one that allows keeps every permission,
one that disallows keeps every refusal, and one without a pattern changes nothing.  The crawl delay
and the sitemaps stay. -/
theorem evaluate_insertBehind [Domains] {s : Settings} {given ready : List String}
    (hNames : Agent.prepare s.mode given = .ok ready) (base : Option Url) {ds : List Directive}
    {n : Nat} (hRule : (ruleAt ds n).isSome = true) (verdict : Verdict) (value : String) :
    ∃ policy edited, s.evaluate given (RuleSet.ofDirectives base ds) = .ok policy ∧
      s.evaluate given (RuleSet.ofDirectives base (insertBehind ds n (.rule verdict value))) =
        .ok edited ∧
      (verdict = .allow → ∀ target, policy.allows target = true → edited.allows target = true) ∧
      (verdict = .disallow → Text.trim value.toList ≠ [] →
        ∀ target, policy.allows target = false → edited.allows target = false) ∧
      (Text.trim value.toList = [] → ∀ target, edited.allows target = policy.allows target) ∧
      edited.crawlDelay = policy.crawlDelay ∧ edited.sitemaps = policy.sitemaps := by
  have hLoses := Layout.losesRule_insertBehind base hRule verdict value
  refine ⟨_, _, evaluate_of_prepare hNames _, evaluate_of_prepare hNames _, ?_, ?_, ?_, ?_, ?_⟩
  · rintro rfl target hAllowed
    rw [policy_allows_iff] at hAllowed ⊢
    exact hLoses.permits_of_allows (by simp [Rule.ofValue_eq, Rule.allows]) hAllowed
  · rintro rfl hPattern target hRefused
    rw [← Bool.not_eq_true, policy_allows_iff] at hRefused ⊢
    refine mt (hLoses.permits fun hAllow => ?_) hRefused
    simp [Rule.ofValue_eq, Rule.allows, hPattern] at hAllow
  · intro hBlank target
    rw [Bool.eq_iff_iff, policy_allows_iff, policy_allows_iff]
    constructor
    · refine hLoses.permits fun _ => ⟨?_, fun g hg x hx => ?_⟩
      · rw [Layout.specificity_ofValue, hBlank, List.length_nil]
      · rw [Layout.ofDirectives_groups] at hg
        exact Layout.allows_of_specificity hg hx
    · exact hLoses.permits_of_allows (by simp [Rule.ofValue_eq, Rule.allows, hBlank])
  · rw [policy_crawlDelay_eq, policy_crawlDelay_eq, hLoses.crawlDelay_eq]
  · exact Layout.sitemaps_insertBehind base n verdict value

/-- A rule for one crawler behind the first of its group, with a delay and a sitemap behind it. -/
def delayedRules : List Directive :=
  [.userAgent "BotB", .rule .disallow "/a", .crawlDelay 2, .sitemap "https://a.example/map.xml",
    .userAgent "*", .rule .allow "/a*b$"]

theorem evaluate_insertBehind_first : Agent.prepare .byWord [" BotB "] = .ok ["botb"] ∧
    (ruleAt delayedRules 1).isSome = true ∧
    ∃ policy edited,
      { standard with mode := .byWord }.evaluate [" BotB "] (RuleSet.ofDirectives none delayedRules) =
        .ok policy ∧
      { standard with mode := .byWord }.evaluate [" BotB "] (RuleSet.ofDirectives none
        (insertBehind delayedRules 1 (.rule .disallow " /*b"))) = .ok edited ∧
      (∀ target, policy.allows target = false → edited.allows target = false) ∧
      edited.crawlDelay = policy.crawlDelay ∧ edited.sitemaps = policy.sitemaps := by
  have hNames : Agent.prepare .byWord [" BotB "] = .ok ["botb"] := by decide
  have hRule : (ruleAt delayedRules 1).isSome = true := by decide +kernel
  obtain ⟨policy, edited, hPolicy, hEdited, -, hRefused, -, hDelay, hSitemaps⟩ :=
    evaluate_insertBehind (s := { standard with mode := .byWord }) hNames none hRule .disallow " /*b"
  exact ⟨hNames, hRule, policy, edited, hPolicy, hEdited, hRefused rfl (by decide), hDelay,
    hSitemaps⟩

end Settings

end RobotsTxt
