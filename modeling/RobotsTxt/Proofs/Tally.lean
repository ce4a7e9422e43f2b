import RobotsTxt.Proofs.Grouping

/-! What a file comes to beside its groups.  The sitemaps are those of its lines without repeats,
whatever else stands in it, and the warnings are counted line by line: apart from the line itself a
warning depends only on whether an agent stands before it. -/

namespace RobotsTxt

namespace Directive

variable [Domains]

/-- The sitemap that a directive gives, for a file at `base`. -/
def sitemap? (base : Option Url) : Directive → Option String
  | .sitemap value => Draft.sitemapUrl? base value
  | _ => none

/-- Whether a directive earns a warning, where an agent stands before it or not. -/
def warns (base : Option Url) (grouped : Bool) : Directive → Bool
  | .userAgent value => Text.trim value.toList = []
  | .rule _ value => !grouped || Pattern.malformed value
  | .crawlDelay _ => !grouped
  | .sitemap value => (Draft.sitemapUrl? base value).isNone
  | .extension _ _ => false
  | .unknown _ _ => true
  | .invalid _ _ => true

end Directive

namespace Draft

variable [Domains] (base : Option Url) (draft : Draft) (d : Directive)

theorem addAgent_sitemaps_warnings (value : String) :
    (draft.addAgent value).sitemaps = draft.sitemaps ∧
      (draft.addAgent value).warnings =
        draft.warnings + (Directive.warns base true (.userAgent value)).toNat := by
  cases hAgent : (Directive.userAgent value).agent? with
  | none =>
    have hBlank : Text.trim value.toList = [] := by simpa [Directive.agent?] using hAgent
    rw [addAgent_of_none hAgent]
    simp [warn, Directive.warns, hBlank]
  | some agent =>
    obtain ⟨hName, hNonempty⟩ := addAgent_of_some hAgent
    have hText : Text.trim value.toList ≠ [] := by
      rintro hBlank
      simp [Directive.agent?, hBlank] at hAgent
    cases hPosition : draft.position <;>
      simp [addAgent, ← hName, hNonempty, hPosition, Directive.warns, hText]

/-- Only a sitemap line changes the sitemaps, by a URL that is not among them yet. -/
theorem add_sitemaps : (draft.add base d).sitemaps =
    draft.sitemaps ++ (d.sitemap? base).toList.filter (!draft.sitemaps.contains ·) := by
  cases d with
  | userAgent value =>
    simp [add, Directive.sitemap?, (addAgent_sitemaps_warnings base draft value).1]
  | rule verdict value =>
    cases hPosition : draft.position <;> simp [add, addRule, warn, hPosition, Directive.sitemap?]
  | crawlDelay seconds =>
    cases hPosition : draft.position <;> simp [add, addDelay, warn, hPosition, Directive.sitemap?]
  | sitemap value =>
    rw [add, addSitemap, Directive.sitemap?]
    cases Draft.sitemapUrl? base value with
    | none => simp [warn]
    | some url => by_cases hOld : url ∈ draft.sitemaps <;> simp [hOld]
  | extension field value | unknown field value | invalid field value =>
    simp [add, warn, Directive.sitemap?]

/-- A draft is in a group. -/
def grouped : Bool :=
  match draft.position with
  | .outside => false
  | .header _ => true
  | .body _ => true

theorem add_warnings :
    (draft.add base d).warnings = draft.warnings + (d.warns base draft.grouped).toNat := by
  cases d with
  | userAgent value => exact (addAgent_sitemaps_warnings base draft value).2
  | rule verdict value =>
    cases hPosition : draft.position <;> cases hMalformed : Pattern.malformed value <;>
      simp [add, addRule, warn, grouped, hPosition, hMalformed, Directive.warns]
  | crawlDelay seconds =>
    cases hPosition : draft.position <;>
      simp [add, addDelay, warn, grouped, hPosition, Directive.warns]
  | sitemap value =>
    rw [add, addSitemap, Directive.warns]
    cases Draft.sitemapUrl? base value with
    | none => simp [warn]
    | some url => by_cases hOld : url ∈ draft.sitemaps <;> simp [hOld]
  | extension field value | unknown field value | invalid field value =>
    simp [add, warn, Directive.warns]

end Draft

namespace Layout

variable (base : Option Url) (ds : List Directive)

/-- A warning stands at a position. -/
def warnsAt [Domains] (i : Nat) : Bool := ds[i]?.any (Directive.warns base (Follows ds i))

variable {ds}

theorem Tracks.grouped_eq {n : Nat} {draft : Draft} (h : Tracks ds n draft) :
    draft.grouped = decide (Follows ds n) := by
  cases hPosition : draft.position with
  | outside =>
    simp only [Tracks, hPosition] at h
    simp [Draft.grouped, hPosition, h.2.2]
  | header g | body g =>
    simp only [Tracks, hPosition] at h
    obtain ⟨m, hStarted, -⟩ := h
    have hFollows : Follows ds n := follows_of_started_pos (by omega)
    simp [Draft.grouped, hPosition, hFollows]

theorem draftBefore_warnings [Domains] {n : Nat} (hn : n ≤ ds.length) :
    (draftBefore ds base n).warnings = (List.range n).countP (warnsAt base ds) := by
  induction n with
  | zero => rfl
  | succ n ih =>
    have hd : ds[n]? = some ds[n] := List.getElem?_eq_getElem hn
    have hGrouped := (tracks_draftBefore base (Nat.le_of_succ_le hn)).grouped_eq
    rw [draftBefore_succ hd, Draft.add_warnings, ih (by omega), hGrouped, List.range_succ,
      List.countP_append, List.countP_singleton, warnsAt, hd, Option.any_some]
    cases ds[n].warns base (decide (Follows ds n)) <;> rfl

theorem ofDirectives_warnings [Domains] (ds : List Directive) :
    (RuleSet.ofDirectives base ds).warnings = (List.range ds.length).countP (warnsAt base ds) := by
  have hAll := draftBefore_warnings base (Nat.le_refl ds.length)
  rwa [draftBefore, List.take_length] at hAll

theorem eraseDups_append_toList {α : Type} [BEq α] [LawfulBEq α] (l : List α) (a : Option α) :
    (l ++ a.toList).eraseDups = l.eraseDups ++ a.toList.filter (!l.eraseDups.contains ·) := by
  rw [List.eraseDups_append]
  cases a with
  | none => simp [List.removeAll]
  | some a => by_cases hMem : a ∈ l <;> simp [List.removeAll, hMem, List.eraseDups_cons]

theorem draftBefore_sitemaps [Domains] {n : Nat} (hn : n ≤ ds.length) :
    (draftBefore ds base n).sitemaps =
      ((ds.take n).filterMap (Directive.sitemap? base)).eraseDups := by
  induction n with
  | zero => rfl
  | succ n ih =>
    have hd : ds[n]? = some ds[n] := List.getElem?_eq_getElem hn
    have hLast : [ds[n]].filterMap (Directive.sitemap? base) =
        (ds[n].sitemap? base).toList := by
      cases hSitemap : ds[n].sitemap? base <;> simp [hSitemap]
    rw [draftBefore_succ hd, Draft.add_sitemaps, ih (by omega), List.take_add_one, hd,
      Option.toList_some, List.filterMap_append, hLast, eraseDups_append_toList]

theorem ofDirectives_sitemaps [Domains] (ds : List Directive) :
    (RuleSet.ofDirectives base ds).sitemaps = (ds.filterMap (Directive.sitemap? base)).eraseDups := by
  have hAll := draftBefore_sitemaps base (Nat.le_refl ds.length)
  rwa [draftBefore, List.take_length] at hAll

end Layout

end RobotsTxt
