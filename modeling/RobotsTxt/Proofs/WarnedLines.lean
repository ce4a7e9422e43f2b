import RobotsTxt.Proofs.Rows
import RobotsTxt.Proofs.Sitemaps
import RobotsTxt.Proofs.StrayPercent

/-! The warnings of a file, line by line.  A line earns a warning for one of seven reasons, which
are read off its own directive and whether an agent stands on a line above it, and the number of
warnings is the number of such lines.  A rule below an agent is kept, warning or not. -/

namespace RobotsTxt

open Directive (Resolves)

/-! ### Reasons for a warning -/

namespace Directive

variable [Domains]

/-- What can be wrong with a directive, where an agent stands above it or not. -/
inductive Warned (base : Option Url) (grouped : Prop) : Directive → Prop where
  | unknown {field value : String} : Warned base grouped (.unknown field value)
  | invalid {field value : String} : Warned base grouped (.invalid field value)
  | noName {value : String} (hBlank : Text.trim value.toList = []) :
      Warned base grouped (.userAgent value)
  | strayRule {verdict : Verdict} {value : String} (hOutside : ¬grouped) :
      Warned base grouped (.rule verdict value)
  | strayDelay {seconds : Float} (hOutside : ¬grouped) : Warned base grouped (.crawlDelay seconds)
  | strayPercent {verdict : Verdict} {value : String} (hGrouped : grouped)
      (hStray : Pattern.HasStray (Text.trim value.toList)) :
      Warned base grouped (.rule verdict value)
  | unresolved {value : String} (hNone : ∀ url, ¬Resolves base value url) :
      Warned base grouped (.sitemap value)

theorem warns_iff (base : Option Url) (grouped : Prop) [Decidable grouped] (d : Directive) :
    d.warns base grouped = true ↔ d.Warned base grouped := by
  cases d with
  | userAgent value =>
    rw [warns, decide_eq_true_iff]
    refine ⟨.noName, fun h => ?_⟩
    cases h with
    | noName hBlank => exact hBlank
  | rule verdict value =>
    rw [warns, Bool.or_eq_true, Bool.not_eq_true', decide_eq_false_iff_not, Pattern.malformed_iff]
    constructor
    · rintro (hOutside | hStray)
      · exact .strayRule hOutside
      · by_cases hGrouped : grouped
        · exact .strayPercent hGrouped hStray
        · exact .strayRule hGrouped
    · intro h
      cases h with
      | strayRule hOutside => exact .inl hOutside
      | strayPercent _ hStray => exact .inr hStray
  | crawlDelay seconds =>
    rw [warns, Bool.not_eq_true', decide_eq_false_iff_not]
    refine ⟨.strayDelay, fun h => ?_⟩
    cases h with
    | strayDelay hOutside => exact hOutside
  | sitemap value =>
    rw [warns, Option.isNone_iff_eq_none, sitemapUrl?_eq_none_iff]
    refine ⟨.unresolved, fun h => ?_⟩
    cases h with
    | unresolved hNone => exact hNone
  | extension field value =>
    rw [warns]
    refine iff_of_false Bool.false_ne_true fun h => ?_
    contradiction
  | unknown field value => exact iff_of_true rfl .unknown
  | invalid field value => exact iff_of_true rfl .invalid

instance (base : Option Url) (grouped : Prop) [Decidable grouped] (d : Directive) :
    Decidable (d.Warned base grouped) :=
  decidable_of_iff _ (warns_iff base grouped d)

/-- What a line of a file says, if it says anything. -/
def ofRaw? (line : List Char) : Option Directive := ofClean? (Text.clean line)

end Directive

/-! ### Lines of a file -/

namespace Lines

variable (lines : List (List Char))

def directiveAt (i : Nat) : Option Directive := lines[i]?.bind Directive.ofRaw?

/-- An agent stands on a line above. -/
def BelowAgent (n : Nat) : Prop :=
  ∃ i < n, ((directiveAt lines i).bind Directive.agent?).isSome = true

instance (n : Nat) : Decidable (BelowAgent lines n) :=
  inferInstanceAs (Decidable (∃ i < n, ((directiveAt lines i).bind Directive.agent?).isSome = true))

/-- A line earns a warning. -/
def WarnedAt [Domains] (base : Option Url) (i : Nat) : Prop :=
  ∃ d ∈ directiveAt lines i, d.Warned base (BelowAgent lines i)

instance [Domains] (base : Option Url) (i : Nat) : Decidable (WarnedAt lines base i) :=
  inferInstanceAs (Decidable (∃ d ∈ directiveAt lines i, d.Warned base (BelowAgent lines i)))

/-- The rule of a line, if it stands below an agent. -/
def ruleAt (i : Nat) : Option Rule :=
  if BelowAgent lines i then (directiveAt lines i).bind Directive.rule? else none

/-- The directives of lines, with one that does nothing for each line that says nothing, so that the
positions of lines are those of directives. -/
def padded : List Directive :=
  lines.map fun line => (Directive.ofRaw? line).getD (.extension "" "")

theorem getElem?_padded (i : Nat) : (padded lines)[i]? =
    lines[i]?.map fun line => (Directive.ofRaw? line).getD (.extension "" "") := by
  rw [padded, List.getElem?_map]

/-- What the directive that does nothing does not give is given by the line or not at all. -/
theorem bind_padded {α : Type} (content : Directive → Option α)
    (hIdle : content (.extension "" "") = none) (i : Nat) :
    (padded lines)[i]?.bind content = (directiveAt lines i).bind content := by
  rw [getElem?_padded, directiveAt]
  cases lines[i]? with
  | none => rfl
  | some line => cases hLine : Directive.ofRaw? line <;> simp [hLine, hIdle]

theorem follows_padded {n : Nat} : Layout.Follows (padded lines) n ↔ BelowAgent lines n := by
  simp only [Layout.Follows, BelowAgent, Layout.agentAt, bind_padded lines Directive.agent? rfl]

theorem ruleAt_padded : Layout.ruleAt (padded lines) = ruleAt lines := by
  funext i
  simp only [Layout.ruleAt, ruleAt, follows_padded, bind_padded lines Directive.rule? rfl]

theorem warnsAt_padded [Domains] (base : Option Url) :
    Layout.warnsAt base (padded lines) = fun i => decide (WarnedAt lines base i) := by
  funext i
  have hIdle : (Directive.extension "" "").warns base (decide (BelowAgent lines i)) = false := rfl
  rw [Bool.eq_iff_iff, decide_eq_true_iff, Layout.warnsAt, getElem?_padded, WarnedAt, directiveAt]
  simp only [follows_padded, ← Directive.warns_iff]
  cases lines[i]? with
  | none => simp
  | some line => cases hLine : Directive.ofRaw? line <;> simp [hLine, hIdle]

/-- Lines that say nothing change nothing. -/
theorem foldl_padded [Domains] (base : Option Url) (draft : Draft) :
    (padded lines).foldl (Draft.add base) draft =
      (lines.filterMap Directive.ofRaw?).foldl (Draft.add base) draft := by
  induction lines generalizing draft with
  | nil => rfl
  | cons line lines ih =>
    rw [padded, List.map_cons, ← padded, List.foldl_cons, ih]
    cases hLine : Directive.ofRaw? line with
    | none =>
      rw [List.filterMap_cons_none hLine]
      rfl
    | some d =>
      rw [List.filterMap_cons_some hLine, List.foldl_cons]
      rfl

end Lines

namespace RuleSet

open Lines (WarnedAt ruleAt padded)

/-- The warnings of a file of a text type are its lines that earn one, so there are no more of them
than lines, and its rules are those of its lines that stand below an agent, whether they earn a
warning or not. -/
theorem parse_warnings [Domains] (robotsUrl : String) (body : List UInt8) {contentType : String}
    (hText : isText contentType = true) :
    let lines := Text.lines (Text.decode body)
    let set := parse robotsUrl body contentType
    set.warnings = (List.range lines.length).countP
        (fun i => WarnedAt lines (Url.ofText? robotsUrl.toList) i) ∧
      set.warnings ≤ lines.length ∧
      set.groups.flatMap Group.rules = (List.range lines.length).filterMap (ruleAt lines) := by
  intro lines set
  have hLength : (padded lines).length = lines.length := List.length_map _
  have hRead : Directive.read (Text.decode body) = lines.filterMap Directive.ofRaw? :=
    Directive.read_eq (Text.decode body)
  have hSet : set = ofDirectives (Url.ofText? robotsUrl.toList) (padded lines) := by
    rw [ofDirectives, Lines.foldl_padded, ← hRead]
    exact if_pos hText
  have hCount : set.warnings = (List.range lines.length).countP
      (fun i => WarnedAt lines (Url.ofText? robotsUrl.toList) i) := by
    rw [hSet, Layout.ofDirectives_warnings, hLength, Lines.warnsAt_padded]
  refine ⟨hCount, ?_, ?_⟩
  · calc set.warnings ≤ (List.range lines.length).length := hCount ▸ List.countP_le_length
      _ = lines.length := List.length_range
  · rw [hSet, Layout.ofDirectives_groups, Layout.flatMap_rules, hLength, Lines.ruleAt_padded]

/-- A file with a line for each reason to warn, and with lines that are fine. -/
def noisyText : List Char :=
  ["Allow: /", "Crawl-delay: 1", "User-agent: <b>", "# none", "USER-AGENT a", "Disallow: /%4*1",
    "Allow: /%41$", "Crawl-delay: soon", "Sitemap: /map", "Sitemap: s:/map", "Nothing: /",
    "Disallow: %"].flatMap fun line => line.toList ++ ['\n']

theorem parse_warnings_noisy :
    isText "text/plain" = true ∧
      let set := parse "" (Text.Utf8.encode noisyText) "text/plain"
      set.warnings = 8 ∧ (set.groups.flatMap Group.rules).map Rule.text =
        ["Disallow: /%4*1", "Allow: /%41$", "Disallow: %"] := by
  have hText : isText "text/plain" = true := by decide +kernel
  have hDecode : Text.decode (Text.Utf8.encode noisyText) = noisyText :=
    Text.decode_encode (by decide +kernel)
  obtain ⟨hCount, -, hRules⟩ := parse_warnings "" (Text.Utf8.encode noisyText) hText
  rw [hDecode] at hCount hRules
  refine ⟨hText, ?_, ?_⟩
  · rw [hCount]
    decide +kernel
  · rw [hRules]
    decide +kernel

end RuleSet

end RobotsTxt
