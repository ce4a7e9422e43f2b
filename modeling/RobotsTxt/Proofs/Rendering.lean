import Mathlib.Data.Bool.AllAny
import Mathlib.Data.List.TakeDrop
import RobotsTxt.Proofs.FieldLines
import RobotsTxt.Proofs.GroupOrder
import RobotsTxt.Proofs.Rows
import RobotsTxt.Proofs.SmallLetters
import RobotsTxt.Proofs.StrayPercent

/-! Files that are written by rule and read back.  A stanza has the agents of one group and its
rules, as they stand in the file.  From the text of some stanzas come their directives, and from
those come the groups that the stanzas stand for, in order, with nothing else but the warnings for
stray percent signs. -/

namespace RobotsTxt

namespace Text

theorem isBlank_of_isLineBreak {c : Char} (h : isLineBreak c = true) : isBlank c = true := by
  simp only [isLineBreak, Bool.or_eq_true, decide_eq_true_eq] at h
  rcases h with (rfl | rfl) | rfl <;> decide

/-- A text that a line keeps as it is written. -/
structure Verbatim (s : List Char) : Prop where
  trimmed : trim s = s
  plain : '#' ∉ s ∧ '<' ∉ s
  unbroken : ∀ c ∈ s, isLineBreak c = false

instance (s : List Char) : Decidable (Verbatim s) :=
  decidable_of_iff (trim s = s ∧ ('#' ∉ s ∧ '<' ∉ s) ∧ s.all (isLineBreak · = false) = true)
    ⟨fun ⟨hTrim, hPlain, hBreak⟩ => ⟨hTrim, hPlain, List.all_iff_forall_prop.mp hBreak⟩,
      fun h => ⟨h.trimmed, h.plain, List.all_iff_forall_prop.mpr h.unbroken⟩⟩

end Text

open Text (Verbatim isBlank isLineBreak)

/-! ### Lines with a field -/

namespace Directive

/-- What is left of a line with a field and a value: without a value the gap before it goes. -/
theorem clean_field {name value : List Char}
    (hName : ∀ c ∈ name, isBlank c = false ∧ c ≠ '#' ∧ c ≠ '<') (h : Verbatim value) :
    ∃ rest, Text.clean (name ++ ':' :: ' ' :: value) = name ++ ':' :: rest ∧
      Text.trimEnd (rest.dropWhile Field.isGap) = value := by
  have hComment : '#' ∉ name ++ ':' :: ' ' :: value := by
    simpa [h.plain.1] using fun hMem => (hName '#' hMem).2.1 rfl
  have hTag : '<' ∉ name ++ ':' :: ' ' :: value := by
    simpa [h.plain.2] using fun hMem => (hName '<' hMem).2.2 rfl
  rw [Text.clean, Text.dropComment_of_not_mem hComment, Text.dropTags_of_not_mem hTag]
  exact exists_trim_eq (fun c hc => (hName c (List.mem_of_mem_head? hc)).1)
    (isValue_of_trimmed (Text.trimmed_of_trim_eq h.trimmed))

theorem read_field {name value : List Char} {field : Field}
    (hField : Field.ofName? name = some field)
    (hName : ∀ c ∈ name, isBlank c = false ∧ c ≠ '#' ∧ c ≠ '<') (hColon : ':' ∉ name)
    (h : Verbatim value) : ∃ line,
      read (name ++ ':' :: ' ' :: value ++ ['\n']) = [ofField field name value line] := by
  have hBreak : ∀ c ∈ name ++ ':' :: ' ' :: value, isLineBreak c = false := by
    intro c hc
    rcases List.mem_append.mp hc with hMem | hMem
    · by_contra hNot
      have hBlank := Text.isBlank_of_isLineBreak (by simpa using hNot)
      rw [(hName c hMem).1] at hBlank
      contradiction
    · rcases List.mem_cons.mp hMem with rfl | hMem
      · decide
      · rcases List.mem_cons.mp hMem with rfl | hMem
        · decide
        · exact h.unbroken c hMem
  obtain ⟨rest, hClean, hValue⟩ := clean_field hName h
  have hLines : Text.lines (name ++ ':' :: ' ' :: value ++ ['\n']) =
      [name ++ ':' :: ' ' :: value] := Text.lines_unbroken_append hBreak rfl
  refine ⟨name ++ ':' :: rest, ?_⟩
  rw [read_eq, hLines]
  simp [ofClean?, hClean, ofLine, ofColon?_append hColon, hField, hValue]

/-- A directive as a line of a file. -/
def line (d : Directive) : List Char := d.text.toList ++ ['\n']

theorem read_line_userAgent {agent : String} (h : Verbatim agent.toList) :
    read (userAgent agent).line = [userAgent agent] := by
  have hLine : (userAgent agent).line =
      "User-agent".toList ++ ':' :: ' ' :: agent.toList ++ ['\n'] := by simp [line, text]
  have hField : Field.ofName? "User-agent".toList = some .userAgent := by decide +kernel
  obtain ⟨written, hRead⟩ := read_field hField
    (List.all_iff_forall_prop.mp (by decide +kernel)) (by decide +kernel) h
  rw [hLine, hRead, ofField, String.ofList_toList]

theorem read_line_rule {pattern : String} (h : Verbatim pattern.toList)
    (hReadable : Text.Utf8.replacement ∉ pattern.toList) (verdict : Verdict) :
    read (rule verdict pattern).line = [rule verdict pattern] := by
  have hLine : (rule verdict pattern).line =
      verdict.label.toList ++ ':' :: ' ' :: pattern.toList ++ ['\n'] := by simp [line, text]
  have hField : Field.ofName? verdict.label.toList = some (.rule verdict) := by
    cases verdict <;> decide +kernel
  obtain ⟨written, hRead⟩ := read_field hField
    (List.all_iff_forall_prop.mp (by cases verdict <;> decide +kernel))
    (by cases verdict <;> decide +kernel) h
  rw [hLine, hRead, ofField, if_neg (by simpa using hReadable), String.ofList_toList]

/-- Directives that are each read from their lines are read from all of them. -/
theorem read_lines_append {ds : List Directive} (h : ∀ d ∈ ds, read d.line = [d])
    (rest : List Char) : read (ds.flatMap line ++ rest) = ds ++ read rest := by
  induction ds with
  | nil => rfl
  | cons d ds ih =>
    obtain ⟨hFirst, hMore⟩ := List.forall_mem_cons.mp h
    have hEnd : d.line.getLast? = some '\n' := by simp [line]
    rw [List.flatMap_cons, List.append_assoc, read_append hEnd, ih hMore, hFirst,
      List.singleton_append, List.cons_append]

end Directive

/-! ### Stanzas -/

/-- The lines of one group as they are written: agents, in small letters, and then rules. -/
structure Stanza where
  agents : List String
  rules : List (Verdict × String)
  agents_ne_nil : agents ≠ []
  rules_ne_nil : rules ≠ []
  agent_ne_empty : ∀ agent ∈ agents, agent ≠ ""
  agent_lowercase : ∀ agent ∈ agents, Text.lowercase agent.toList = agent.toList
  agent_verbatim : ∀ agent ∈ agents, Verbatim agent.toList
  pattern_verbatim : ∀ rule ∈ rules, Verbatim rule.2.toList
  pattern_readable : ∀ rule ∈ rules, Text.Utf8.replacement ∉ rule.2.toList

namespace Stanza

variable (s : Stanza)

def ruleLines : List Directive := s.rules.map fun rule => .rule rule.1 rule.2

def directives : List Directive := s.agents.map .userAgent ++ s.ruleLines

/-- The lines of a stanza and a blank one. -/
def text : List Char := s.directives.flatMap Directive.line ++ ['\n']

def render (stanzas : List Stanza) : List Char := stanzas.flatMap text

/-- A rule as it is written stands for this one.  Without a pattern it allows everything. -/
def ruleOf (rule : Verdict × String) : Rule :=
  ⟨Pattern.ofText rule.2, if rule.2 = "" then .allow else rule.1⟩

/-- The group that a stanza stands for. -/
def group : Group := ⟨Audience.ofNames s.agents, s.rules.map ruleOf, []⟩

/-! ### From the text to the directives -/

theorem read_text_append (rest : List Char) :
    Directive.read (s.text ++ rest) = s.directives ++ Directive.read rest := by
  have hLines : ∀ d ∈ s.directives, Directive.read d.line = [d] := by
    intro d hd
    rcases List.mem_append.mp hd with hAgent | hRule
    · obtain ⟨agent, hMem, rfl⟩ := List.mem_map.mp hAgent
      exact Directive.read_line_userAgent (s.agent_verbatim agent hMem)
    · obtain ⟨rule, hMem, rfl⟩ := List.mem_map.mp hRule
      exact Directive.read_line_rule (s.pattern_verbatim rule hMem) (s.pattern_readable rule hMem) _
  have hBlank : Directive.read ['\n'] = [] := rfl
  rw [text, List.append_assoc, Directive.read_lines_append hLines, Directive.read_append rfl, hBlank,
    List.nil_append]

theorem read_render (stanzas : List Stanza) :
    Directive.read (render stanzas) = stanzas.flatMap directives := by
  induction stanzas with
  | nil => rfl
  | cons s stanzas ih =>
    rw [render, List.flatMap_cons, read_text_append, ← render, ih, List.flatMap_cons]

/-! ### From the directives to the groups -/

theorem agent?_eq {agent : String} (h : agent ∈ s.agents) :
    (Directive.userAgent agent).agent? = some agent := by
  simp [Directive.agent?, (s.agent_verbatim agent h).trimmed, s.agent_lowercase agent h,
    s.agent_ne_empty agent h]

theorem rule?_eq {rule : Verdict × String} (h : rule ∈ s.rules) :
    (Directive.rule rule.1 rule.2).rule? = some (ruleOf rule) := by
  simp [Directive.rule?, ruleOf, (s.pattern_verbatim rule h).trimmed]

theorem fresh_directives (stanzas : List Stanza) :
    Directive.Fresh (stanzas.flatMap directives) := by
  cases stanzas with
  | nil => trivial
  | cons s stanzas =>
    obtain ⟨agent, agents, hAgents⟩ := List.exists_cons_of_ne_nil s.agents_ne_nil
    have hFirst : (Directive.userAgent agent).agent? = some agent :=
      s.agent?_eq (by simp [hAgents])
    rw [List.flatMap_cons, directives, hAgents]
    exact .inl (by simp [hFirst])

theorem extendBy_rules {rules : List (Verdict × String)}
    (h : ∀ rule ∈ rules, (Directive.rule rule.1 rule.2).rule? = some (ruleOf rule)) (g : Group) :
    g.extendBy (rules.map fun rule => .rule rule.1 rule.2) =
      { g with rules := g.rules ++ rules.map ruleOf } := by
  induction rules generalizing g with
  | nil => simp [Group.extendBy]
  | cons rule rules ih =>
    obtain ⟨hFirst, hMore⟩ := List.forall_mem_cons.mp h
    have hStep : g.extend (.rule rule.1 rule.2) = { g with rules := g.rules ++ [ruleOf rule] } := by
      simp [Group.extend, hFirst, Directive.agent?, Directive.seconds?]
    rw [List.map_cons, Group.extendBy, List.foldl_cons, hStep, ← Group.extendBy, ih hMore]
    simp

/-- Behind a stanza its group is complete, if no rule or crawl delay comes before the next agent. -/
theorem read_directives {more : List Directive} (h : Directive.Fresh more) :
    Position.outside.read (s.directives ++ more) = s.group :: Position.outside.read more := by
  obtain ⟨agent, agents, hAgents⟩ := List.exists_cons_of_ne_nil s.agents_ne_nil
  obtain ⟨rule, rules, hRules⟩ := List.exists_cons_of_ne_nil s.rules_ne_nil
  have hFirst : (Directive.userAgent agent).agent? = some agent := s.agent?_eq (by simp [hAgents])
  have hNoRule : ∀ d ∈ agents.map Directive.userAgent, d.rule? = none := by
    simp [Directive.rule?]
  have hNoAgent : ∀ d ∈ s.ruleLines, d.agent? = none := by
    intro d hd
    obtain ⟨rule, -, rfl⟩ := List.mem_map.mp hd
    rfl
  have hClosed : ¬Directive.AgentFirst (s.ruleLines ++ more) := by
    simp [ruleLines, hRules, Directive.AgentFirst, Directive.agent?, Directive.rule?]
  calc Position.outside.read (s.directives ++ more)
      = (Position.header (Group.empty.extend (.userAgent agent))).read
          (agents.map .userAgent ++ (s.ruleLines ++ more)) := by
        simp [directives, hAgents, Position.read, Position.next, Position.completed, hFirst]
    _ = (Position.header (Group.empty.extendBy (s.agents.map .userAgent))).read
          (s.ruleLines ++ more) := by
        rw [Position.read_header_append hNoRule, hAgents]
        rfl
    _ = (Position.body ⟨Audience.ofNames s.agents, [], []⟩).read (s.ruleLines ++ more) := by
        rw [Group.extendBy_agents fun agent => s.agent?_eq, Position.read_header_of_not_agentFirst hClosed]
    _ = (Position.body s.group).read more := by
        rw [Position.read_body_append hNoAgent, ruleLines, extendBy_rules fun rule => s.rule?_eq,
          List.nil_append, group]
    _ = s.group :: Position.outside.read more := Position.read_body_of_fresh h s.group

theorem read_flatMap_directives (stanzas : List Stanza) :
    Position.outside.read (stanzas.flatMap directives) = stanzas.map group := by
  induction stanzas with
  | nil => rfl
  | cons s stanzas ih =>
    rw [List.flatMap_cons, read_directives s (fresh_directives stanzas), ih, List.map_cons]

/-! ### Warnings -/

theorem countP_warns [Domains] (base : Option Url) :
    s.directives.countP (Directive.warns base true) =
      s.rules.countP fun rule => Pattern.HasStray rule.2.toList := by
  have hAgents : (s.agents.map Directive.userAgent).countP (Directive.warns base true) = 0 := by
    refine List.countP_eq_zero.mpr fun d hd => ?_
    obtain ⟨agent, hMem, rfl⟩ := List.mem_map.mp hd
    simp [Directive.warns, (s.agent_verbatim agent hMem).trimmed, s.agent_ne_empty agent hMem]
  rw [directives, List.countP_append, hAgents, Nat.zero_add, ruleLines, List.countP_map]
  refine List.countP_congr fun rule hRule => ?_
  rw [Function.comp_apply, Directive.warns, Bool.not_true, Bool.false_or, Pattern.malformed_iff,
    (s.pattern_verbatim rule hRule).trimmed, decide_eq_true_iff]

theorem countP_flatMap_directives [Domains] (base : Option Url) (stanzas : List Stanza) :
    (stanzas.flatMap directives).countP (Directive.warns base true) =
      (stanzas.flatMap rules).countP fun rule => Pattern.HasStray rule.2.toList := by
  induction stanzas with
  | nil => rfl
  | cons s stanzas ih =>
    rw [List.flatMap_cons, List.flatMap_cons, List.countP_append, List.countP_append,
      s.countP_warns, ih]

end Stanza

namespace RuleSet

theorem ofDirectives_stanzas [Domains] (base : Option Url) (stanzas : List Stanza) :
    ofDirectives base (stanzas.flatMap Stanza.directives) = ⟨stanzas.map Stanza.group, [],
      (stanzas.flatMap Stanza.rules).countP fun rule => Pattern.HasStray rule.2.toList⟩ := by
  have hGroups : (ofDirectives base (stanzas.flatMap Stanza.directives)).groups =
      stanzas.map Stanza.group := by
    rw [ofDirectives, Draft.finish, Draft.groups_foldl]
    exact Stanza.read_flatMap_directives stanzas
  have hSitemaps : (ofDirectives base (stanzas.flatMap Stanza.directives)).sitemaps = [] := by
    have hNone : (stanzas.flatMap Stanza.directives).filterMap (Directive.sitemap? base) = [] := by
      simp [Stanza.directives, Stanza.ruleLines, Directive.sitemap?, List.filterMap_flatMap]
    rw [Layout.ofDirectives_sitemaps, hNone, List.eraseDups_nil]
  have hWarnings := Layout.ofDirectives_warnings_of_fresh base (Stanza.fresh_directives stanzas)
  rw [Stanza.countP_flatMap_directives] at hWarnings
  rw [← hGroups, ← hSitemaps, ← hWarnings]

theorem head?_render (stanzas : List Stanza) : (Stanza.render stanzas).head? ≠ some '\uFEFF' := by
  cases stanzas with
  | nil => simp [Stanza.render]
  | cons s stanzas =>
    obtain ⟨agent, agents, hAgents⟩ := List.exists_cons_of_ne_nil s.agents_ne_nil
    simp [Stanza.render, Stanza.text, Stanza.directives, hAgents, Directive.line, Directive.text]

/-- What is written is read back: a file made of stanzas has their groups, no sitemaps, and a warning
for each rule with a stray percent sign in its pattern.  The rules keep the patterns as they are
written, and one allows if it is written so or has no pattern. -/
theorem parse_render [Domains] (robotsUrl : String) (stanzas : List Stanza) :
    parse robotsUrl (Text.Utf8.encode (Stanza.render stanzas)) "text/plain" =
        ⟨stanzas.map Stanza.group, [],
          (stanzas.flatMap Stanza.rules).countP fun rule => Pattern.HasStray rule.2.toList⟩ ∧
      ∀ s ∈ stanzas, s.group.rules.map (fun rule => (rule.pattern.source, rule.allows)) =
        s.rules.map fun rule => (rule.2, decide (rule.1 = .allow ∨ rule.2 = "")) := by
  constructor
  · rw [parse_encode robotsUrl (by decide +kernel) (head?_render stanzas), Stanza.read_render,
      ofDirectives_stanzas]
  · intro s hs
    rw [Stanza.group, List.map_map]
    refine List.map_congr_left fun rule hRule => ?_
    have hSource : (Pattern.ofText rule.2).source = rule.2 := by
      rw [Pattern.ofText, (s.pattern_verbatim rule hRule).trimmed, String.ofList_toList]
    simp only [Function.comp_apply, Stanza.ruleOf, Rule.allows, hSource]
    by_cases hEmpty : rule.2 = "" <;> simp [hEmpty]

/-- A stanza for all crawlers, with names that look like more than a name, a rule without a pattern
and one in which a star stands inside of an escape. -/
def openStanza : Stanza where
  agents := ["*", "a: b", "*", "σας", "a: b"]
  rules := [(.disallow, ""), (.disallow, "/%4*1$")]
  agents_ne_nil := by decide
  rules_ne_nil := by decide
  agent_ne_empty := by decide +kernel
  agent_lowercase := by decide +kernel
  agent_verbatim := by decide +kernel
  pattern_verbatim := by decide +kernel
  pattern_readable := by decide +kernel

/-- A stanza whose names and patterns look like lines. -/
def quotedStanza : Stanza where
  agents := ["user-agent: *"]
  rules := [(.allow, "Disallow: /%41"), (.disallow, "https://h/%%41")]
  agents_ne_nil := by decide
  rules_ne_nil := by decide
  agent_ne_empty := by decide +kernel
  agent_lowercase := by decide +kernel
  agent_verbatim := by decide +kernel
  pattern_verbatim := by decide +kernel
  pattern_readable := by decide +kernel

theorem parse_render_quoted :
    let read := parse "" (Text.Utf8.encode (Stanza.render [openStanza, quotedStanza])) "text/plain"
    read.groups.map Group.audience = [⟨["a: b", "σας"], true⟩, ⟨["user-agent: *"], false⟩] ∧
      read.groups.map (fun g => g.rules.map Rule.text) =
        [["Allow: ", "Disallow: /%4*1$"], ["Allow: Disallow: /%41", "Disallow: https://h/%%41"]] ∧
      read.warnings = 2 := by
  intro read
  have hRead := (parse_render "" [openStanza, quotedStanza]).1
  rw [show read = _ from hRead]
  decide +kernel

end RuleSet

end RobotsTxt
