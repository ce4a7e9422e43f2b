import Mathlib.Data.List.Induction
import RobotsTxt.Proofs.Damage
import RobotsTxt.Proofs.Tally

/-! A file made of sections.  Where every agent of a section is followed by a rule, its last group
has its rules, and where the next section has no rule or crawl delay before an agent, it adds none to
that group.  Then the groups and warnings of the two are those of each, and the sitemaps are those of
both without repeats. -/

namespace RobotsTxt

/-! ### Groups that more lines extend -/

theorem Group.extendBy_append (g : Group) (first second : List Directive) :
    g.extendBy (first ++ second) = (g.extendBy first).extendBy second := List.foldl_append ..

theorem Group.extendBy_agents {agents : List String}
    (h : ∀ agent ∈ agents, (Directive.userAgent agent).agent? = some agent) :
    empty.extendBy (agents.map .userAgent) = ⟨Audience.ofNames agents, [], []⟩ := by
  induction agents using List.reverseRecOn with
  | nil => rfl
  | append_singleton agents agent ih =>
    have hBefore := ih fun other hMem => h other (by simp [hMem])
    rw [List.map_append, extendBy_append, hBefore, Audience.ofNames_append_singleton]
    simp [extendBy, extend, h agent (by simp), Directive.rule?, Directive.seconds?]

namespace Position

theorem read_header_append {lines : List Directive} (h : ∀ d ∈ lines, d.rule? = none) (g : Group)
    (more : List Directive) :
    (header g).read (lines ++ more) = (header (g.extendBy lines)).read more := by
  induction lines generalizing g with
  | nil => rfl
  | cons d lines ih =>
    obtain ⟨hFirst, hRest⟩ := List.forall_mem_cons.mp h
    have hStep : (header g).read (d :: (lines ++ more)) =
        (header (g.extend d)).read (lines ++ more) := by simp [read, completed, next, hFirst]
    rw [List.cons_append, hStep, ih hRest]
    rfl

theorem read_body_append {lines : List Directive} (h : ∀ d ∈ lines, d.agent? = none) (g : Group)
    (more : List Directive) :
    (body g).read (lines ++ more) = (body (g.extendBy lines)).read more := by
  induction lines generalizing g with
  | nil => rfl
  | cons d lines ih =>
    obtain ⟨hFirst, hRest⟩ := List.forall_mem_cons.mp h
    have hStep : (body g).read (d :: (lines ++ more)) =
        (body (g.extend d)).read (lines ++ more) := by simp [read, completed, next, hFirst]
    rw [List.cons_append, hStep, ih hRest]
    rfl

end Position

/-! ### Sections that start with an agent -/

/-- No rule or crawl delay comes before an agent. -/
def Directive.Fresh : List Directive → Prop
  | [] => True
  | d :: rest => d.agent?.isSome = true ∨ d.rule? = none ∧ d.seconds? = none ∧ Fresh rest

open Directive (Fresh)

instance Directive.decidableFresh : (ds : List Directive) → Decidable (Fresh ds)
  | [] => .isTrue trivial
  | d :: rest =>
    have := decidableFresh rest
    inferInstanceAs (Decidable (d.agent?.isSome = true ∨ d.rule? = none ∧ d.seconds? = none ∧
      Fresh rest))

namespace Position

/-- What comes behind a body makes the same groups as on its own, if an agent comes first. -/
theorem read_body_of_fresh {ds : List Directive} (h : Fresh ds) (g : Group) :
    (body g).read ds = g :: outside.read ds := by
  induction ds with
  | nil => rfl
  | cons d ds ih =>
    cases hAgent : d.agent? with
    | some agent => simp [read, completed, next, hAgent]
    | none =>
      obtain ⟨hRule, hSeconds, hRest⟩ := h.resolve_left (by simp [hAgent])
      obtain ⟨hBody, hBodyDone⟩ := next_of_idle hAgent hRule hSeconds (body g)
      obtain ⟨hOutside, hOutsideDone⟩ := next_of_idle hAgent hRule hSeconds outside
      rw [read, read, hBody, hBodyDone, hOutside, hOutsideDone, List.nil_append, List.nil_append]
      exact ih hRest

end Position

namespace Layout

variable {a b : List Directive}

theorem follows_of_fresh (h : Fresh b) {i : Nat} {d : Directive} (hd : b[i]? = some d)
    (hCounts : d.rule?.isSome = true ∨ d.seconds?.isSome = true) : Follows b i := by
  have hAgent : d.agent? = none := by
    cases d <;> simp_all [Directive.agent?, Directive.rule?, Directive.seconds?]
  induction b generalizing i with
  | nil => simp at hd
  | cons e b ih =>
    by_cases hFirst : e.agent?.isSome = true
    · cases i with
      | zero =>
        obtain rfl : e = d := by simpa using hd
        simp [hAgent] at hFirst
      | succ i => exact ⟨0, Nat.succ_pos i, by simpa [agentAt] using hFirst⟩
    · obtain ⟨hRule, hSeconds, hRest⟩ := h.resolve_left hFirst
      cases i with
      | zero =>
        obtain rfl : e = d := by simpa using hd
        simp [hRule, hSeconds] at hCounts
      | succ i =>
        obtain ⟨j, hj, hAgentAt⟩ := ih hRest (by simpa using hd)
        exact ⟨j + 1, by omega, by simpa [agentAt] using hAgentAt⟩

theorem agentAt_append_left {i : Nat} (h : i < a.length) :
    agentAt (a ++ b) i = agentAt a i := by
  rw [agentAt, agentAt, List.getElem?_append_left h]

theorem agentAt_append_right (i : Nat) : agentAt (a ++ b) (a.length + i) = agentAt b i := by
  rw [agentAt, agentAt, List.getElem?_append_right (Nat.le_add_right ..), Nat.add_sub_cancel_left]

theorem follows_append_left {n : Nat} (h : n ≤ a.length) :
    Follows (a ++ b) n ↔ Follows a n := by
  refine exists_congr fun i => and_congr_right fun hi => ?_
  rw [agentAt_append_left (by omega)]

theorem follows_append_right {n : Nat} :
    Follows (a ++ b) (a.length + n) ↔ Follows a a.length ∨ Follows b n := by
  constructor
  · rintro ⟨i, hi, hAgent⟩
    by_cases hLeft : i < a.length
    · exact .inl ⟨i, hLeft, by rwa [← agentAt_append_left hLeft (b := b)]⟩
    · obtain ⟨j, rfl⟩ := Nat.exists_eq_add_of_le (Nat.le_of_not_lt hLeft)
      exact .inr ⟨j, by omega, by rwa [← agentAt_append_right (a := a)]⟩
  · rintro (⟨i, hi, hAgent⟩ | ⟨i, hi, hAgent⟩)
    · exact ⟨i, by omega, by rwa [agentAt_append_left hi]⟩
    · exact ⟨a.length + i, by omega, by rwa [agentAt_append_right]⟩

section

variable [Domains]

/-- Only rules and crawl delays earn a warning for what stands before them. -/
theorem warns_eq (base : Option Url) {d : Directive} (h : d.rule? = none)
    (hSeconds : d.seconds? = none) (grouped : Bool) : d.warns base grouped = d.warns base true := by
  cases d <;> simp_all [Directive.rule?, Directive.seconds?, Directive.warns]

theorem warnsAt_append_left (base : Option Url) {i : Nat} (h : i < a.length) :
    warnsAt base (a ++ b) i = warnsAt base a i := by
  rw [warnsAt, warnsAt, List.getElem?_append_left h]
  simp only [follows_append_left (b := b) (Nat.le_of_lt h)]

/-- Behind an agent, and for a line that needs none before it, what stands before it is all one. -/
theorem warns_of_fresh (base : Option Url) (h : Fresh b) {i : Nat} {d : Directive}
    (hd : b[i]? = some d) {grouped : Bool} (hGrouped : Follows b i → grouped = true) :
    d.warns base grouped = d.warns base true := by
  by_cases hIdle : d.rule? = none ∧ d.seconds? = none
  · exact warns_eq base hIdle.1 hIdle.2 grouped
  · have hFollows : Follows b i := follows_of_fresh h hd
      ((not_and_or.mp hIdle).imp Option.isSome_iff_ne_none.mpr Option.isSome_iff_ne_none.mpr)
    rw [hGrouped hFollows]

theorem warnsAt_of_fresh (base : Option Url) (h : Fresh b) (i : Nat) :
    warnsAt base b i = b[i]?.any (Directive.warns base true) := by
  rw [warnsAt]
  cases hd : b[i]? with
  | none => rfl
  | some d => exact warns_of_fresh base h hd decide_eq_true

theorem warnsAt_append_right (base : Option Url) (h : Fresh b) (i : Nat) :
    warnsAt base (a ++ b) (a.length + i) = warnsAt base b i := by
  rw [warnsAt_of_fresh base h, warnsAt, List.getElem?_append_right (Nat.le_add_right ..),
    Nat.add_sub_cancel_left]
  cases hd : b[i]? with
  | none => rfl
  | some d =>
    exact warns_of_fresh base h hd fun hFollows =>
      decide_eq_true (follows_append_right.mpr (.inr hFollows))

end

theorem eraseDups_append_filter {α : Type} [BEq α] [LawfulBEq α] (l more : List α) :
    (l ++ more).eraseDups =
      l.eraseDups ++ more.eraseDups.filter (!l.eraseDups.contains ·) := by
  induction more using List.reverseRecOn with
  | nil => simp
  | append_singleton more a ih =>
    have hStep := fun l : List α => eraseDups_append_toList l (some a)
    simp only [Option.toList_some] at hStep
    rw [← List.append_assoc, hStep, ih, hStep, List.filter_append, List.append_assoc]
    by_cases hLeft : a ∈ l <;> by_cases hRight : a ∈ more <;> simp [hLeft, hRight]

/-! ### Two sections -/

variable (base : Option Url)

theorem ofDirectives_groups_append [Domains] (hSettled : Settled a a.length) (hFresh : Fresh b) :
    (RuleSet.ofDirectives base (a ++ b)).groups =
      (RuleSet.ofDirectives base a).groups ++ (RuleSet.ofDirectives base b).groups := by
  have hTracks := tracks_draftBefore base (Nat.le_refl a.length)
  have hFirst : draftBefore a base a.length = a.foldl (Draft.add base) Draft.empty := by
    rw [draftBefore, List.take_length]
  rw [RuleSet.ofDirectives, List.foldl_append, ← hFirst, Draft.finish, Draft.groups_foldl,
    RuleSet.ofDirectives, ← hFirst, Draft.finish, Draft.groups_eq_append, RuleSet.ofDirectives,
    Draft.finish, Draft.groups_foldl, List.append_assoc]
  refine congrArg ((draftBefore a base a.length).closed ++ ·) ?_
  cases hPosition : (draftBefore a base a.length).position with
  | outside => rfl
  | header g =>
    simp only [Tracks, hPosition] at hTracks
    obtain ⟨m, -, -, -, hOpen⟩ := hTracks
    exact absurd hSettled hOpen
  | body g => exact Position.read_body_of_fresh hFresh g

theorem ofDirectives_warnings_append [Domains] (hFresh : Fresh b) :
    (RuleSet.ofDirectives base (a ++ b)).warnings =
      (RuleSet.ofDirectives base a).warnings + (RuleSet.ofDirectives base b).warnings := by
  rw [ofDirectives_warnings, ofDirectives_warnings, ofDirectives_warnings, List.length_append,
    List.range_add, List.countP_append, List.countP_map]
  refine congrArg₂ (· + ·) (List.countP_congr fun i hi => ?_) (List.countP_congr fun i _ => ?_)
  · rw [warnsAt_append_left base (List.mem_range.mp hi)]
  · rw [Function.comp_apply, warnsAt_append_right base hFresh]

theorem countP_range_any {α : Type} (p : α → Bool) (l : List α) :
    (List.range l.length).countP (fun i => l[i]?.any p) = l.countP p := by
  induction l with
  | nil => rfl
  | cons a l ih =>
    rw [List.length_cons, List.range_succ_eq_map, List.countP_cons, List.countP_map,
      List.countP_cons, ← ih]
    rfl

/-- Where an agent comes first, each line earns its own warnings. -/
theorem ofDirectives_warnings_of_fresh [Domains] (h : Fresh b) :
    (RuleSet.ofDirectives base b).warnings = b.countP (Directive.warns base true) := by
  rw [ofDirectives_warnings, ← countP_range_any (Directive.warns base true)]
  exact List.countP_congr fun i _ => by rw [warnsAt_of_fresh base h]

theorem ofDirectives_sitemaps_append [Domains] : (RuleSet.ofDirectives base (a ++ b)).sitemaps =
    (RuleSet.ofDirectives base a).sitemaps ++ (RuleSet.ofDirectives base b).sitemaps.filter
      (!(RuleSet.ofDirectives base a).sitemaps.contains ·) := by
  rw [ofDirectives_sitemaps, ofDirectives_sitemaps, ofDirectives_sitemaps, List.filterMap_append,
    eraseDups_append_filter]

end Layout

end RobotsTxt
