import RobotsTxt.Proofs.Concatenation
import RobotsTxt.Proofs.FieldLines
import RobotsTxt.Proofs.SmallLetters

/-! What holds of a rule set in the making, whatever the file and wherever the reading stops.  A
group is for somebody, its agents are names that lines can declare, each once, and its crawl delays
are times that a crawler can wait, each for the agents that are declared before it.  A group is
complete only when it has a rule, and so has the group of a position after its header.  The lemmas
say that one directive keeps all this. -/

namespace RobotsTxt

/-! ### Audiences -/

namespace Audience

/-- The first agents of an audience, and the wildcard only if the audience has it. -/
structure IsPart (part whole : Audience) : Prop where
  agents : part.agents <+: whole.agents
  wildcard : part.wildcard = true → whole.wildcard = true

theorem IsPart.refl (a : Audience) : a.IsPart a := ⟨List.prefix_rfl, id⟩

theorem IsPart.trans {a b c : Audience} (hab : a.IsPart b) (hbc : b.IsPart c) : a.IsPart c :=
  ⟨hab.agents.trans hbc.agents, fun h => hbc.wildcard (hab.wildcard h)⟩

/-- A declaration adds to an audience and takes nothing from it. -/
theorem isPart_declare (a : Audience) (agent : String) : a.IsPart (a.declare agent) := by
  unfold declare
  split
  · exact ⟨List.prefix_rfl, fun _ => rfl⟩
  · split
    · exact IsPart.refl a
    · exact ⟨List.prefix_append a.agents [agent], id⟩

/-- The agents are names, each of them once. -/
structure Named (a : Audience) : Prop where
  names : ∀ agent ∈ a.agents, agent ≠ "" ∧ agent ≠ "*" ∧ Text.Trimmed agent.toList
  distinct : a.agents.Nodup

theorem Named.declare {a : Audience} (h : a.Named) {agent : String} (hNonempty : agent ≠ "")
    (hTrimmed : Text.Trimmed agent.toList) : (a.declare agent).Named := by
  unfold Audience.declare
  split
  · exact ⟨h.names, h.distinct⟩
  · rename_i hStar
    split
    · exact h
    · rename_i hNew
      have hFresh : agent ∉ a.agents := by simpa using hNew
      constructor
      · intro other hOther
        rcases List.mem_append.mp hOther with hOld | hLast
        · exact h.names other hOld
        · obtain rfl := List.mem_singleton.mp hLast
          exact ⟨hNonempty, hStar, hTrimmed⟩
      · exact h.distinct.append (List.nodup_singleton agent) (by simpa using hFresh)

/-- Somebody is addressed. -/
def Addresses (a : Audience) : Prop := a.agents ≠ [] ∨ a.wildcard = true

theorem addresses_declare (a : Audience) (agent : String) : (a.declare agent).Addresses := by
  unfold declare Addresses
  split
  · exact .inr rfl
  · split
    · rename_i hOld
      exact .inl (List.ne_nil_of_mem (by simpa using hOld))
    · exact .inl (by simp)

theorem Addresses.mono {a b : Audience} (h : a.Addresses) (hPart : a.IsPart b) : b.Addresses := by
  rcases h with hAgents | hWildcard
  · exact .inl fun hNone => hAgents (List.prefix_nil.mp (hNone ▸ hPart.agents))
  · exact .inr (hPart.wildcard hWildcard)

end Audience

/-! ### Directives -/

namespace Directive

/-- Seconds that can be waited: finitely many, and not less than none. -/
def IsDelay (seconds : Float) : Prop := seconds.isFinite = true ∧ 0 ≤ seconds

/-- A crawl delay has seconds that can be waited. -/
def Sound (d : Directive) : Prop := ∀ seconds, d.seconds? = some seconds → IsDelay seconds

theorem isDelay_of_delay? {value : List Char} {seconds : Float} (h : delay? value = some seconds) :
    IsDelay seconds := by
  unfold delay? at h
  split at h
  · split at h
    · rename_i hTest
      obtain rfl := Option.some.inj h
      rw [Bool.and_eq_true, decide_eq_true_iff] at hTest
      exact hTest
    · contradiction
  · contradiction

theorem sound_ofField (field : Field) (name value line : List Char) :
    (ofField field name value line).Sound := by
  intro seconds hSeconds
  cases field with
  | userAgent | extension => contradiction
  | rule verdict =>
    rw [ofField] at hSeconds
    split at hSeconds <;> contradiction
  | crawlDelay =>
    rw [ofField] at hSeconds
    split at hSeconds
    · rename_i hDelay
      obtain rfl := Option.some.inj hSeconds
      exact isDelay_of_delay? hDelay
    · contradiction
  | sitemap =>
    rw [ofField] at hSeconds
    split at hSeconds <;> contradiction
  | bareUrl =>
    rw [ofField] at hSeconds
    split at hSeconds
    · contradiction
    · obtain ⟨name, value, hUnknown⟩ := exists_ofUnknown_eq line
      rw [hUnknown] at hSeconds
      contradiction

theorem sound_ofLine {line : List Char} (h : Text.Trimmed line) : (ofLine line).Sound := by
  rcases ofLine_cases h with hUnknown | ⟨field, name, value, -, hField⟩
  · obtain ⟨name, value, hEq⟩ := exists_ofUnknown_eq line
    rw [hUnknown, hEq]
    intro seconds hSeconds
    contradiction
  · rw [hField]
    exact sound_ofField field name value line

theorem sound_read (s : List Char) : ∀ d ∈ read s, d.Sound := by
  intro d hd
  rw [read_eq] at hd
  obtain ⟨line, -, hLine⟩ := List.mem_filterMap.mp hd
  simp only [Function.comp_apply, ofClean?] at hLine
  split at hLine
  · contradiction
  · obtain rfl := Option.some.inj hLine
    exact sound_ofLine (Text.trimmed_trim _)

/-- An agent that a line declares is a name. -/
theorem agent?_name {d : Directive} {agent : String} (h : d.agent? = some agent) :
    agent ≠ "" ∧ Text.Trimmed agent.toList := by
  cases d with
  | userAgent value =>
    simp only [agent?] at h
    split at h
    · contradiction
    · rename_i hName
      obtain rfl := Option.some.inj h
      refine ⟨by simpa [Text.lowercase_eq_nil_iff] using hName, ?_⟩
      rw [String.toList_ofList]
      exact (Text.trimmed_trim value.toList).lowercase
  | _ => contradiction

end Directive

open Directive (IsDelay)

/-! ### Groups -/

namespace Group

/-- The agents of a group are names, and its crawl delays are times, each for the agents that the
group has when the delay comes. -/
structure Consistent (g : Group) : Prop where
  named : g.audience.Named
  delays : ∀ d ∈ g.delays, IsDelay d.seconds ∧ d.audience.IsPart g.audience
  order : g.delays.Pairwise fun d later =>
    d.audience.agents.length ≤ later.audience.agents.length

/-- A consistent group that is for somebody. -/
structure Sound (g : Group) : Prop extends g.Consistent where
  addressed : g.audience.Addresses

theorem consistent_empty : empty.Consistent where
  named := ⟨by simp [empty, Audience.empty], List.nodup_nil⟩
  delays := by simp [empty]
  order := List.Pairwise.nil

theorem isPart_extend (g : Group) (d : Directive) :
    g.audience.IsPart (g.extend d).audience := by
  cases hAgent : d.agent? with
  | none => simpa [extend, hAgent] using Audience.IsPart.refl g.audience
  | some agent => simpa [extend, hAgent] using g.audience.isPart_declare agent

theorem Consistent.extend {g : Group} (h : g.Consistent) {d : Directive} (hd : d.Sound) :
    (g.extend d).Consistent where
  named := by
    cases hAgent : d.agent? with
    | none => simpa [Group.extend, hAgent] using h.named
    | some agent =>
      obtain ⟨hNonempty, hTrimmed⟩ := Directive.agent?_name hAgent
      simpa [Group.extend, hAgent] using h.named.declare hNonempty hTrimmed
  delays := by
    intro delay hDelay
    rcases List.mem_append.mp hDelay with hOld | hNew
    · obtain ⟨hWait, hPart⟩ := h.delays delay hOld
      exact ⟨hWait, hPart.trans (g.isPart_extend d)⟩
    · obtain ⟨seconds, hSeconds, rfl⟩ := Option.map_eq_some_iff.mp (Option.mem_toList.mp hNew)
      exact ⟨hd seconds hSeconds, g.isPart_extend d⟩
  order := by
    refine List.pairwise_append.mpr ⟨h.order, ?_, fun delay hOld later hNew => ?_⟩
    · cases d.seconds? <;> simp
    · -- The new delay is for all agents so far, and so at least for those of each earlier one.
      obtain ⟨seconds, -, rfl⟩ := Option.map_eq_some_iff.mp (Option.mem_toList.mp hNew)
      exact (h.delays delay hOld).2.agents.length_le

theorem Sound.extend {g : Group} (h : g.Sound) {d : Directive} (hd : d.Sound) :
    (g.extend d).Sound where
  toConsistent := h.toConsistent.extend hd
  addressed := h.addressed.mono (g.isPart_extend d)

/-- A group that starts with an agent is for somebody. -/
theorem sound_empty_extend {d : Directive} (hAgent : d.agent?.isSome = true) (hd : d.Sound) :
    (empty.extend d).Sound where
  toConsistent := consistent_empty.extend hd
  addressed := by
    obtain ⟨agent, hSome⟩ := Option.isSome_iff_exists.mp hAgent
    simpa [Group.extend, hSome] using Audience.addresses_declare _ agent

end Group

/-! ### Positions -/

namespace Position

/-- The group in the making. -/
def group? : Position → Option Group
  | outside => none
  | header g => some g
  | body g => some g

/-- Whether the next agent is for the group in the making. -/
def inHeader : Position → Bool
  | header _ => true
  | _ => false

structure Sound (p : Position) : Prop where
  group : ∀ g, p.group? = some g → g.Sound
  header : p.inHeader = true → p.group?.isSome = true
  body : p.inHeader = false → ∀ g, p.group? = some g → g.rules ≠ []

variable {p : Position} {d : Directive}

theorem sound_header {g : Group} (h : g.Sound) : (header g).Sound where
  group := by simpa [group?] using h
  header := by simp [group?]
  body := by simp [inHeader]

theorem sound_body {g : Group} (h : g.Sound) (hRules : g.rules ≠ []) : (Position.body g).Sound where
  group := by simpa [group?] using h
  header := by simp [inHeader]
  body := by simp [group?, hRules]

theorem sound_outside : outside.Sound where
  group := by simp [group?]
  header := by simp [inHeader]
  body := by simp [group?]

theorem Sound.next (h : p.Sound) (hd : d.Sound) : (p.next d).Sound := by
  cases p with
  | outside =>
    rw [Position.next]
    split
    · rename_i hAgent
      exact sound_header (Group.sound_empty_extend hAgent hd)
    · exact sound_outside
  | header g =>
    have hGroup := (h.group g rfl).extend hd
    rw [Position.next]
    split
    · rename_i hRule
      obtain ⟨rule, hSome⟩ := Option.isSome_iff_exists.mp hRule
      exact sound_body hGroup (by simp [Group.extend, hSome])
    · exact sound_header hGroup
  | body g =>
    have hRules : g.rules ≠ [] := h.body rfl g rfl
    rw [Position.next]
    split
    · rename_i hAgent
      exact sound_header (Group.sound_empty_extend hAgent hd)
    · exact sound_body ((h.group g rfl).extend hd) (by simp [Group.extend, hRules])

/-- A group that a directive completes has a rule. -/
theorem Sound.completed (h : p.Sound) (d : Directive) :
    ∀ g ∈ p.completed d, g.Sound ∧ g.rules ≠ [] := by
  intro g hg
  cases p with
  | outside | header _ => simp [Position.completed] at hg
  | body made =>
    obtain ⟨-, rfl⟩ : d.agent?.isSome = true ∧ g = made := by simpa [Position.completed] using hg
    exact ⟨h.group g rfl, h.body rfl g rfl⟩

end Position

/-! ### Drafts -/

/-- Every group is sound, and every one that is followed by another has a rule. -/
structure RuleSet.Sound (s : RuleSet) : Prop where
  groups : ∀ g ∈ s.groups, g.Sound
  followed : ∀ g ∈ s.groups.dropLast, g.rules ≠ []

namespace Draft

structure Sound (draft : Draft) : Prop where
  closed : ∀ g ∈ draft.closed, g.Sound ∧ g.rules ≠ []
  position : draft.position.Sound

variable {draft : Draft}

theorem sound_empty : empty.Sound := ⟨by simp [empty], Position.sound_outside⟩

theorem Sound.add [Domains] (h : draft.Sound) (base : Option Url) {d : Directive} (hd : d.Sound) :
    (draft.add base d).Sound := by
  obtain ⟨hPosition, hClosed⟩ := add_position_closed base draft d
  constructor
  · rw [hClosed]
    exact List.forall_mem_append.mpr ⟨h.closed, h.position.completed d⟩
  · rw [hPosition]
    exact h.position.next hd

theorem Sound.foldl [Domains] (h : draft.Sound) (base : Option Url) {ds : List Directive}
    (hds : ∀ d ∈ ds, d.Sound) : (ds.foldl (Draft.add base) draft).Sound := by
  induction ds generalizing draft with
  | nil => exact h
  | cons d ds ih =>
    obtain ⟨hFirst, hMore⟩ := List.forall_mem_cons.mp hds
    exact ih (h.add base hFirst) hMore

theorem groups_eq (draft : Draft) :
    draft.groups = draft.closed ++ draft.position.group?.toList := by
  rw [groups]
  cases draft.position <;> simp [Position.group?]

/-- Wherever the reading stops, the rule set is sound. -/
theorem Sound.finish (h : draft.Sound) : draft.finish.Sound where
  groups := by
    intro g hg
    rw [Draft.finish, groups_eq] at hg
    rcases List.mem_append.mp hg with hClosed | hLast
    · exact (h.closed g hClosed).1
    · exact h.position.group g (Option.mem_toList.mp hLast)
  followed := by
    intro g hg
    rw [Draft.finish, groups_eq] at hg
    cases hGroup : draft.position.group? with
    | none =>
      rw [hGroup, Option.toList_none, List.append_nil] at hg
      exact (h.closed g (List.mem_of_mem_dropLast hg)).2
    | some made =>
      rw [hGroup, Option.toList_some, List.dropLast_concat] at hg
      exact (h.closed g hg).2

end Draft

namespace RuleSet

/-- Reading any body as the file of any URL, the draft is sound after every directive, and so are
the rule set that it would come to there and the one that the body comes to. -/
theorem parse_sound [Domains] (robotsUrl : String) (body : List UInt8) (contentType : String) :
    let base := Url.ofText? robotsUrl.toList
    let draft := Layout.draftBefore (Directive.read (Text.decode body)) base
    (∀ n, (draft n).Sound ∧ (draft n).finish.Sound) ∧ (parse robotsUrl body contentType).Sound := by
  intro base draft
  have hRead := Directive.sound_read (Text.decode body)
  have hPart : ∀ ds : List Directive, (∀ d ∈ ds, d ∈ Directive.read (Text.decode body)) →
      (ds.foldl (Draft.add base) Draft.empty).Sound :=
    fun ds hds => Draft.sound_empty.foldl base fun d hd => hRead d (hds d hd)
  refine ⟨fun n => ?_, ?_⟩
  · have hTake : (draft n).Sound := hPart _ fun d hd => List.mem_of_mem_take hd
    exact ⟨hTake, hTake.finish⟩
  · rw [parse]
    split
    · exact (hPart _ fun d hd => hd).finish
    · exact ⟨by simp [empty], by simp [empty]⟩

end RuleSet

end RobotsTxt
