import RobotsTxt.Proofs.Damage
import RobotsTxt.Proofs.Tally

/-! Sitemaps and groups, which have nothing to do with each other.  The sitemaps of a file are those
that its sitemap lines stand for, each where it comes first, and they are the same whatever other
lines stand between; the groups are made of the lines of agents, rules and crawl delays alone.  A
sitemap line that stands for no URL costs a warning and nothing else. -/

namespace RobotsTxt

namespace Directive

def isSitemap : Directive → Bool
  | .sitemap _ => true
  | _ => false

/-- A line is for groups: it names an agent, or gives a rule or a crawl delay. -/
def isGroupLine : Directive → Bool
  | .userAgent _ | .rule _ _ | .crawlDelay _ => true
  | .sitemap _ | .extension _ _ | .unknown _ _ | .invalid _ _ => false

/-- A sitemap value stands for a URL in a file at `base`: one that is a URL for itself as it is
written, and one without a scheme for what it comes to beside the URL of the file. -/
inductive Resolves [Domains] (base : Option Url) (value : String) : String → Prop where
  | absolute {url : Url} (hUrl : Url.ofText? value.toList = some url) : Resolves base value value
  | relative {file url : Url} (hBase : base = some file)
      (hScheme : (Url.Reference.ofText value.toList).scheme = none)
      (hUrl : Url.relative? file (Url.Reference.ofText value.toList) = some url) :
      Resolves base value (String.ofList url.text)

variable (base : Option Url)

theorem sitemapUrl?_eq_some_iff [Domains] {value url : String} :
    Draft.sitemapUrl? base value = some url ↔ Resolves base value url := by
  rw [Draft.sitemapUrl?]
  cases hScheme : (Url.Reference.ofText value.toList).scheme with
  | some scheme =>
    rw [Option.map_eq_some_iff]
    constructor
    · rintro ⟨u, hUrl, rfl⟩
      exact .absolute hUrl
    · intro h
      cases h with
      | absolute hUrl => exact ⟨_, hUrl, rfl⟩
      | relative _ hNone _ => simp [hScheme] at hNone
  | none =>
    constructor
    · intro h
      obtain ⟨file, hBase, hRest⟩ := Option.bind_eq_some_iff.mp h
      obtain ⟨u, hUrl, hText⟩ := Option.bind_eq_some_iff.mp hRest
      obtain rfl := Option.some.inj hText
      exact .relative hBase hScheme hUrl
    · intro h
      cases h with
      | absolute hUrl => simp [Url.ofText?, Url.ofReference?, hScheme] at hUrl
      | relative hBase _ hUrl => simp [hBase, hUrl]

theorem sitemapUrl?_eq_none_iff [Domains] {value : String} :
    Draft.sitemapUrl? base value = none ↔ ∀ url, ¬Resolves base value url := by
  simp only [Option.eq_none_iff_forall_ne_some, ne_eq, sitemapUrl?_eq_some_iff]

/-- Lines that are not for groups give no agent, rule or delay. -/
theorem idle_of_not_isGroupLine {d : Directive} (h : d.isGroupLine = false) :
    d.agent? = none ∧ d.rule? = none ∧ d.seconds? = none := by
  cases d with
  | userAgent _ | rule _ _ | crawlDelay _ => contradiction
  | _ => exact ⟨rfl, rfl, rfl⟩

theorem sitemap?_of_not_isSitemap [Domains] {d : Directive} (h : d.isSitemap = false) :
    d.sitemap? base = none := by
  cases d with
  | sitemap value => contradiction
  | _ => rfl

theorem filterMap_sitemap? [Domains] (ds : List Directive) :
    (ds.filter isSitemap).filterMap (sitemap? base) = ds.filterMap (sitemap? base) := by
  rw [List.filterMap_filter]
  refine List.filterMap_congr fun d _ => ?_
  by_cases h : d.isSitemap = true
  · rw [if_pos h]
  · rw [if_neg h, sitemap?_of_not_isSitemap base (by simpa using h)]

end Directive

open Directive (Resolves)

/-! ### Groups -/

/-- The groups from a position on are made of the lines that are for groups. -/
theorem Position.read_filter (p : Position) (ds : List Directive) :
    p.read (ds.filter Directive.isGroupLine) = p.read ds := by
  induction ds generalizing p with
  | nil => rfl
  | cons d ds ih =>
    by_cases h : d.isGroupLine = true
    · rw [List.filter_cons_of_pos h, read, read, ih]
    · obtain ⟨hAgent, hRule, hSeconds⟩ := Directive.idle_of_not_isGroupLine (by simpa using h)
      obtain ⟨hNext, hCompleted⟩ := next_of_idle hAgent hRule hSeconds p
      rw [List.filter_cons_of_neg h, read, hNext, hCompleted, List.nil_append, ih]

theorem RuleSet.ofDirectives_groups_filter [Domains] (base other : Option Url)
    (ds : List Directive) :
    (ofDirectives other (ds.filter Directive.isGroupLine)).groups = (ofDirectives base ds).groups := by
  rw [ofDirectives, ofDirectives, Draft.finish, Draft.finish, Draft.groups_foldl,
    Draft.groups_foldl, Position.read_filter]

/-! ### Warnings -/

namespace Draft

/-- Two drafts are in the same groups, and the second has some more warnings. -/
structure WarnedMore (more : Nat) (draft other : Draft) : Prop where
  closed : other.closed = draft.closed
  position : other.position = draft.position
  warnings : other.warnings = draft.warnings + more

variable [Domains] {more : Nat} {draft other : Draft} (base : Option Url)

theorem WarnedMore.add (h : WarnedMore more draft other) (d : Directive) :
    WarnedMore more (draft.add base d) (other.add base d) := by
  obtain ⟨hPosition, hClosed⟩ := add_position_closed base draft d
  obtain ⟨hPosition', hClosed'⟩ := add_position_closed base other d
  have hGrouped : other.grouped = draft.grouped := by rw [grouped, grouped, h.position]
  constructor
  · rw [hClosed', hClosed, h.closed, h.position]
  · rw [hPosition', hPosition, h.position]
  · rw [add_warnings, add_warnings, h.warnings, hGrouped]
    omega

theorem WarnedMore.foldl (h : WarnedMore more draft other) (ds : List Directive) :
    WarnedMore more (ds.foldl (Draft.add base) draft) (ds.foldl (Draft.add base) other) := by
  induction ds generalizing draft other with
  | nil => exact h
  | cons d ds ih => exact ih (h.add base d)

theorem warnedMore_sitemap (draft : Draft) (value : String) :
    WarnedMore (sitemapUrl? base value).isNone.toNat draft (draft.add base (.sitemap value)) := by
  obtain ⟨hPosition, hClosed⟩ := addSitemap_position_closed base draft value
  exact ⟨hClosed, hPosition, add_warnings base draft (.sitemap value)⟩

end Draft

namespace RuleSet

/-- The rule set with one more warning. -/
def warned (s : RuleSet) : RuleSet := ⟨s.groups, s.sitemaps, s.warnings + 1⟩

section

variable [Domains] (base : Option Url) (before : List Directive) {value : String}
  (after : List Directive)

/-- A sitemap line leaves the groups as they are, and earns a warning if it stands for no URL. -/
theorem ofDirectives_insert_sitemap (value : String) :
    (ofDirectives base (before ++ .sitemap value :: after)).groups =
        (ofDirectives base (before ++ after)).groups ∧
      (ofDirectives base (before ++ .sitemap value :: after)).warnings =
        (ofDirectives base (before ++ after)).warnings +
          (Draft.sitemapUrl? base value).isNone.toNat := by
  have hLine := Draft.warnedMore_sitemap base (before.foldl (Draft.add base) Draft.empty) value
  have hMore := hLine.foldl base after
  simp only [ofDirectives, List.foldl_append, List.foldl_cons, Draft.finish]
  refine ⟨?_, hMore.warnings⟩
  rw [Draft.groups_eq_append, Draft.groups_eq_append, hMore.closed, hMore.position]

/-- A sitemap line that stands for a URL costs nothing. -/
theorem ofDirectives_resolved {url : String} (h : Resolves base value url) :
    (ofDirectives base (before ++ .sitemap value :: after)).groups =
        (ofDirectives base (before ++ after)).groups ∧
      (ofDirectives base (before ++ .sitemap value :: after)).warnings =
        (ofDirectives base (before ++ after)).warnings := by
  have hInsert := ofDirectives_insert_sitemap base before after value
  rwa [(Directive.sitemapUrl?_eq_some_iff base).mpr h, Option.isNone_some, Bool.toNat_false,
    Nat.add_zero] at hInsert

/-- A sitemap line that stands for no URL is left out, with a warning. -/
theorem ofDirectives_dropped (h : ∀ url, ¬Resolves base value url) :
    ofDirectives base (before ++ .sitemap value :: after) =
      (ofDirectives base (before ++ after)).warned := by
  have hNone := (Directive.sitemapUrl?_eq_none_iff base).mpr h
  have hLine : (Directive.sitemap value).sitemap? base = none := hNone
  have hSitemaps : (ofDirectives base (before ++ .sitemap value :: after)).sitemaps =
      (ofDirectives base (before ++ after)).sitemaps := by
    rw [Layout.ofDirectives_sitemaps, Layout.ofDirectives_sitemaps, List.filterMap_append,
      List.filterMap_cons_none hLine, ← List.filterMap_append]
  obtain ⟨hGroups, hWarnings⟩ := ofDirectives_insert_sitemap base before after value
  rw [hNone, Option.isNone_none, Bool.toNat_true] at hWarnings
  rw [warned, ← hGroups, ← hSitemaps, ← hWarnings]

end

/-- The sitemaps of a file are the URLs that its sitemap lines stand for, in order, each where it
comes first.  A line that stands for one earns no warning; one that stands for none earns a warning,
and is otherwise as if it were not there.  Files with the same sitemap lines have the same sitemaps,
and files with the same lines for groups have the same groups, wherever the files are. -/
theorem ofDirectives_sitemap_lines [Domains] (base : Option Url) (ds : List Directive) :
    (ofDirectives base ds).sitemaps = (ds.filterMap (Directive.sitemap? base)).eraseDups ∧
      (∀ value url, (Directive.sitemap value).sitemap? base = some url ↔
        Resolves base value url) ∧
      (∀ before value after, ds = before ++ .sitemap value :: after →
        (∀ url, Resolves base value url →
          (ofDirectives base ds).groups = (ofDirectives base (before ++ after)).groups ∧
          (ofDirectives base ds).warnings = (ofDirectives base (before ++ after)).warnings) ∧
        ((∀ url, ¬Resolves base value url) →
          ofDirectives base ds = (ofDirectives base (before ++ after)).warned)) ∧
      (∀ others : List Directive,
        others.filter Directive.isSitemap = ds.filter Directive.isSitemap →
        (ofDirectives base others).sitemaps = (ofDirectives base ds).sitemaps) ∧
      ∀ (elsewhere : Option Url) (others : List Directive),
        others.filter Directive.isGroupLine = ds.filter Directive.isGroupLine →
        (ofDirectives elsewhere others).groups = (ofDirectives base ds).groups := by
  refine ⟨Layout.ofDirectives_sitemaps base ds, fun value url => ?_, ?_, fun others hSame => ?_,
    fun elsewhere others hSame => ?_⟩
  · rw [Directive.sitemap?, Directive.sitemapUrl?_eq_some_iff]
  · rintro before value after rfl
    exact ⟨fun url => ofDirectives_resolved base before after, ofDirectives_dropped base before after⟩
  · rw [Layout.ofDirectives_sitemaps, Layout.ofDirectives_sitemaps,
      ← Directive.filterMap_sitemap? base others, hSame, Directive.filterMap_sitemap?]
  · rw [← ofDirectives_groups_filter elsewhere elsewhere others, hSame, ofDirectives_groups_filter base]

/-- A file with sitemap lines before, within and after its only group.  Two of them stand for the
same URL, and the last for none. -/
def scatteredLines : List Directive :=
  [.sitemap "s.xml", .userAgent "*", .sitemap "HTTPS://h/s.xml", .unknown "Host" "h",
    .rule .disallow "/x", .sitemap "https://h/s.xml", .sitemap "http://:"]

/-- The URL of the file. -/
def scatteredUrl : Option Url := Url.ofText? "https://h/robots.txt".toList

theorem ofDirectives_sitemap_lines_scattered :
    (ofDirectives scatteredUrl scatteredLines).sitemaps = ["https://h/s.xml", "HTTPS://h/s.xml"] ∧
      (Resolves scatteredUrl "s.xml" "https://h/s.xml" ∧
        (ofDirectives scatteredUrl scatteredLines).warnings =
          (ofDirectives scatteredUrl scatteredLines.tail).warnings) ∧
      ((∀ url, ¬Resolves scatteredUrl "http://:" url) ∧
        ofDirectives scatteredUrl scatteredLines =
          (ofDirectives scatteredUrl (scatteredLines.take 6)).warned) ∧
      (ofDirectives scatteredUrl (scatteredLines.filter Directive.isSitemap)).sitemaps =
        (ofDirectives scatteredUrl scatteredLines).sitemaps ∧
      (ofDirectives none (scatteredLines.filter Directive.isGroupLine)).groups =
        (ofDirectives scatteredUrl scatteredLines).groups := by
  obtain ⟨hSitemaps, hResolves, hLine, hSame, hGroups⟩ :=
    ofDirectives_sitemap_lines scatteredUrl scatteredLines
  have hFirst : Resolves scatteredUrl "s.xml" "https://h/s.xml" :=
    (hResolves _ _).mp (by decide +kernel)
  have hLast : ∀ url, ¬Resolves scatteredUrl "http://:" url :=
    (Directive.sitemapUrl?_eq_none_iff _).mp (by decide +kernel)
  refine ⟨?_, ⟨hFirst, ((hLine [] _ _ rfl).1 _ hFirst).2⟩,
    ⟨hLast, (hLine (scatteredLines.take 6) _ [] rfl).2 hLast⟩, hSame _ ?_, hGroups none _ ?_⟩
  · rw [hSitemaps]
    decide +kernel
  · rw [List.filter_filter]
    simp
  · rw [List.filter_filter]
    simp

end RuleSet

end RobotsTxt
