import RobotsTxt.Settings

/-! The groups that a crawler obeys and the crawl delay that counts for it, said of the groups
themselves: `Obeys` and `FirstDelay` speak of no filter and no search, and the theorems prove that
the filters and searches of `Settings` find what they describe. -/

namespace RobotsTxt.Settings

variable (s : Settings) (names : List String) (groups : List Group)

/-- A group names the crawler: it declares agents, and the matcher accepts them. -/
def Names (g : Group) : Prop :=
  names ≠ [] ∧ g.audience.agents ≠ [] ∧ s.matcher names g.audience.agents s.mode = true

/-- None of the groups names the crawler. -/
def Unnamed : Prop := ∀ g ∈ groups, ¬s.Names names g

/-- The crawler obeys the groups that name it, and if there are none, those for everyone. -/
def Obeys (g : Group) : Prop :=
  g ∈ groups ∧ (s.Names names g ∨ s.Unnamed names groups ∧ g.audience.wildcard = true)

/-- A crawl delay in a group that the crawler obeys is for the crawler: what was declared before it
is the wildcard if the group is obeyed for the wildcard, and agents that the matcher accepts
otherwise. -/
def InScope (d : CrawlDelay) : Prop :=
  s.Unnamed names groups ∧ d.audience.wildcard = true ∨
    ¬s.Unnamed names groups ∧ s.matcher names d.audience.agents s.mode = true

/-- `d` is the first crawl delay for the crawler in the groups that it obeys. -/
def FirstDelay (d : CrawlDelay) : Prop :=
  ∃ earlier g later before after, groups = earlier ++ g :: later ∧ g.delays = before ++ d :: after ∧
    s.Obeys names groups g ∧ s.InScope names groups d ∧
    (∀ h ∈ earlier, s.Obeys names groups h → ∀ e ∈ h.delays, ¬s.InScope names groups e) ∧
    ∀ e ∈ before, ¬s.InScope names groups e

variable {s names groups}

theorem addresses_iff {g : Group} : s.addresses names g = true ↔ s.Names names g := by
  simp [addresses, Names, and_assoc]

theorem byWildcard_iff : s.byWildcard names groups = true ↔ s.Unnamed names groups := by
  simp [byWildcard, named, Unnamed, addresses_iff]

theorem covers_iff {d : CrawlDelay} :
    s.covers names groups d = true ↔ s.InScope names groups d := by
  by_cases h : s.Unnamed names groups
  · simp [covers, InScope, byWildcard_iff.mpr h, h]
  · simp [covers, InScope, Bool.not_eq_true _ ▸ mt byWildcard_iff.mp h, h]

/-- The test of a single group that selects the groups to obey. -/
def isObeyed (s : Settings) (names : List String) (groups : List Group) (g : Group) : Bool :=
  if s.byWildcard names groups then g.audience.wildcard else s.addresses names g

theorem selected_eq_filter :
    s.selected names groups = groups.filter (s.isObeyed names groups) := by
  unfold selected named isObeyed
  split <;> rfl

theorem isObeyed_iff {g : Group} (hg : g ∈ groups) :
    s.isObeyed names groups g = true ↔ s.Obeys names groups g := by
  by_cases h : s.Unnamed names groups
  · simp [isObeyed, Obeys, byWildcard_iff.mpr h, hg, h, h g hg]
  · simp [isObeyed, Obeys, Bool.not_eq_true _ ▸ mt byWildcard_iff.mp h, hg, h, addresses_iff]

theorem mem_selected {g : Group} :
    g ∈ s.selected names groups ↔ s.Obeys names groups g := by
  rw [selected_eq_filter, List.mem_filter]
  constructor
  · rintro ⟨hg, hTest⟩
    exact (isObeyed_iff hg).mp hTest
  · intro h
    exact ⟨h.1, (isObeyed_iff h.1).mpr h⟩

/-- A search through a part of the groups is a search through all of them that skips the rest. -/
theorem findSome?_filter {α : Type} (p : Group → Bool) (f : Group → Option α)
    (groups : List Group) : (groups.filter p).findSome? f =
      groups.findSome? fun g => if p g then f g else none := by
  induction groups with
  | nil => rfl
  | cons g groups ih => by_cases h : p g = true <;> simp [List.findSome?_cons, h, ih]

theorem find?_covers_iff {d : CrawlDelay} :
    ((s.selected names groups).flatMap Group.delays).find? (s.covers names groups) = some d ↔
      s.FirstDelay names groups d := by
  rw [List.find?_flatMap, selected_eq_filter, findSome?_filter, List.findSome?_eq_some_iff]
  constructor
  · rintro ⟨earlier, g, later, hGroups, hFound, hEarlier⟩
    have hMem : g ∈ groups := by simp [hGroups]
    split at hFound
    · rename_i hTest
      obtain ⟨hScope, before, after, hDelays, hBefore⟩ :=
        List.find?_eq_some_iff_append.mp hFound
      refine ⟨earlier, g, later, before, after, hGroups, hDelays, (isObeyed_iff hMem).mp hTest,
        covers_iff.mp hScope, fun h hh hObeys e he hIn => ?_, fun e he hIn => ?_⟩
      · have hNone := hEarlier h hh
        rw [if_pos ((isObeyed_iff hObeys.1).mpr hObeys)] at hNone
        exact List.find?_eq_none.mp hNone e he (covers_iff.mpr hIn)
      · simpa [covers_iff.mpr hIn] using hBefore e he
    · contradiction
  · rintro ⟨earlier, g, later, before, after, hGroups, hDelays, hObeys, hScope, hEarlier, hBefore⟩
    refine ⟨earlier, g, later, hGroups, ?_, fun h hh => ?_⟩
    · rw [if_pos ((isObeyed_iff hObeys.1).mpr hObeys)]
      refine List.find?_eq_some_iff_append.mpr
        ⟨covers_iff.mpr hScope, before, after, hDelays, fun e he => ?_⟩
      simpa [← covers_iff] using hBefore e he
    · have hMem : h ∈ groups := by simp [hGroups, hh]
      split
      · rename_i hTest
        refine List.find?_eq_none.mpr fun e he hIn => ?_
        exact hEarlier h hh ((isObeyed_iff hMem).mp hTest) e he (covers_iff.mp hIn)
      · rfl

/-- The crawl delay of the crawler is the first one for it in the groups that it obeys. -/
theorem crawlDelay_eq_some_iff {ms : Nat} : s.crawlDelay names groups = some ms ↔
    ∃ d, s.FirstDelay names groups d ∧ d.milliseconds = ms := by
  simp only [crawlDelay, Option.map_eq_some_iff, find?_covers_iff]

variable (s names groups)

/-- The first crawl delay for the crawler is as good as a refusal. -/
def Refused : Prop :=
  ∃ max d, s.maxCrawlDelay = some max ∧ s.FirstDelay names groups d ∧ max ≤ d.milliseconds

variable {s names groups}

theorem refuses_iff :
    s.refuses (s.crawlDelay names groups) = true ↔ s.Refused names groups := by
  unfold refuses Refused
  split
  · rename_i ms max hDelay hMax
    obtain ⟨d, hFirst, hMs⟩ := crawlDelay_eq_some_iff.mp hDelay
    rw [decide_eq_true_eq]
    constructor
    · intro h
      exact ⟨max, d, hMax, hFirst, hMs ▸ h⟩
    · rintro ⟨max', d', hMax', hFirst', hLe⟩
      obtain rfl : max = max' := Option.some.inj (hMax.symm.trans hMax')
      have hSame := crawlDelay_eq_some_iff.mpr ⟨d', hFirst', rfl⟩
      obtain rfl : ms = d'.milliseconds := Option.some.inj (hDelay.symm.trans hSame)
      exact hLe
  · rename_i hNot
    refine iff_of_false (by simp) ?_
    rintro ⟨max, d, hMax, hFirst, -⟩
    exact hNot _ _ (crawlDelay_eq_some_iff.mpr ⟨d, hFirst, rfl⟩) hMax

end RobotsTxt.Settings
