import RobotsTxt.Pattern
import RobotsTxt.Proofs.Search

/-! Patterns as globs.  A glob is read off a directive value without a search: a path matches if it
can be written as the literals in order with any texts between them.  The matcher takes each literal
at its leftmost place and never goes back; that it misses no match is an exchange: what follows the
leftmost place ends with what follows any other, and the gap before the next literal takes up the
difference. -/

namespace RobotsTxt.Pattern

/-! ### The literals after the first -/

/-- The texts of `gaps` and `literals` in turn. -/
def weave (gaps literals : List (List Char)) : List Char :=
  (List.zipWith (· ++ ·) gaps literals).flatten

/-- The literals stand in the path in order with gaps before them, and if the pattern is anchored,
nothing stands behind the last. -/
def Fits (anchored : Bool) : List (List Char) → List Char → Prop
  | [], tail => anchored = true → tail = []
  | literal :: literals, path =>
    ∃ gap rest, path = gap ++ literal ++ rest ∧ Fits anchored literals rest

theorem fits_iff_weave {anchored : Bool} {literals : List (List Char)} {path : List Char} :
    Fits anchored literals path ↔ ∃ gaps tail, gaps.length = literals.length ∧
      path = weave gaps literals ++ tail ∧ (anchored = true → tail = []) := by
  induction literals generalizing path with
  | nil =>
    constructor
    · intro h
      exact ⟨[], path, rfl, rfl, h⟩
    · rintro ⟨gaps, tail, hLength, rfl, h⟩
      simpa [Fits, weave, List.length_eq_zero_iff.mp hLength] using h
  | cons literal literals ih =>
    constructor
    · rintro ⟨gap, rest, rfl, hFits⟩
      obtain ⟨gaps, tail, hLength, rfl, hTail⟩ := ih.mp hFits
      refine ⟨gap :: gaps, tail, ?_, ?_, hTail⟩
      · rw [List.length_cons, List.length_cons, hLength]
      · simp [weave]
    · rintro ⟨gaps, tail, hLength, rfl, hTail⟩
      cases gaps with
      | nil => contradiction
      | cons gap gaps =>
        refine ⟨gap, weave gaps literals ++ tail, ?_, ih.mpr ⟨gaps, tail, ?_, rfl, hTail⟩⟩
        · simp [weave]
        · simpa using hLength

/-- The gap before a literal takes up what stands in front of the path. -/
theorem Fits.append_left {anchored : Bool} {literal : List Char} {literals : List (List Char)}
    {path : List Char} (h : Fits anchored (literal :: literals) path) (front : List Char) :
    Fits anchored (literal :: literals) (front ++ path) := by
  obtain ⟨gap, rest, rfl, hFits⟩ := h
  exact ⟨front ++ gap, rest, by simp [List.append_assoc], hFits⟩

theorem fits_singleton_iff {anchored : Bool} {last path : List Char} :
    Fits anchored [last] path ↔
      if anchored then last <:+ path else ∃ u v, path = u ++ last ++ v := by
  cases anchored with
  | true =>
    constructor
    · rintro ⟨gap, rest, rfl, hTail⟩
      obtain rfl := hTail rfl
      exact ⟨gap, by simp⟩
    · rintro ⟨gap, rfl⟩
      exact ⟨gap, [], by simp, fun _ => rfl⟩
  | false =>
    constructor
    · rintro ⟨gap, rest, rfl, -⟩
      exact ⟨gap, rest, rfl⟩
    · rintro ⟨u, v, rfl⟩
      exact ⟨u, v, rfl, nofun⟩

/-- Of all places for a literal that is not the last, the leftmost serves. -/
theorem Fits.of_leftmost {anchored : Bool} {literal next : List Char} {literals : List (List Char)}
    {path before after : List Char} (hLeft : Text.Leftmost literal path before after)
    (h : Fits anchored (literal :: next :: literals) path) :
    Fits anchored (next :: literals) after := by
  obtain ⟨gap, rest, hPath, hFits⟩ := h
  obtain ⟨front, rfl⟩ := hLeft.suffix hPath
  exact hFits.append_left front

theorem matchRest_iff_fits {anchored : Bool} {literals : List (List Char)} {path : List Char} :
    matchRest anchored literals path = true ↔ Fits anchored literals path := by
  fun_induction matchRest anchored literals path with
  | case1 path => cases anchored <;> simp [Fits]
  | case2 last path hAnchored => simp [fits_singleton_iff, hAnchored]
  | case3 last path hAnchored =>
    rw [fits_singleton_iff, if_neg hAnchored, Text.isSome_afterFirst_iff]
  | case4 literal rest path hRest after hAfter ih =>
    obtain ⟨before, hLeft⟩ := Text.leftmost_of_afterFirst hAfter
    obtain ⟨next, literals, rfl⟩ := List.exists_cons_of_ne_nil hRest
    rw [ih]
    constructor
    · intro hFits
      exact ⟨before, after, hLeft.split, hFits⟩
    · intro hFits
      exact hFits.of_leftmost hLeft
  | case5 literal rest path hRest hNone =>
    refine iff_of_false (by simp) ?_
    rintro ⟨gap, rest, rfl, -⟩
    obtain ⟨after, hAfter⟩ := Text.afterFirst_append literal gap rest
    rw [hAfter] at hNone
    contradiction

/-! ### The whole pattern -/

/-- A pattern matches a path that its first literal starts and whose rest the others fit. -/
theorem matchesNormal_iff {p : Pattern} {first : List Char} {rest : List (List Char)}
    (hLiterals : p.literals = first :: rest) (path : List Char) :
    p.matchesNormal path = true ↔ ∃ after, path = first ++ after ∧ Fits p.anchored rest after := by
  rw [matchesNormal, hLiterals]
  simp only
  split
  · rename_i after hStart
    rw [matchRest_iff_fits, Text.isPrefixOf?_eq_some_iff.mp hStart]
    simp
  · rename_i hStart
    refine iff_of_false (by simp) ?_
    rintro ⟨after, hPath, -⟩
    exact Text.isPrefixOf?_eq_none_iff.mp hStart after hPath

/-- How a directive value reads as a glob: without its last `$`, which ties it to the end of the
path, and from the root of the path, it is the segments with a star between any two. -/
structure Reads (raw : String) (anchored : Bool) (segments : List (List Char)) : Prop where
  anchor : anchored = true ↔ ∃ body, Text.trim raw.toList = body ++ ['$']
  body : ∃ body, Text.trim raw.toList = body ++ (if anchored then ['$'] else []) ∧
    ['*'].intercalate segments = rooted body
  starless : ∀ segment ∈ segments, '*' ∉ segment
  nonempty : segments ≠ []

/-- A directive value, read as a glob, matches a path: in normal form, the path is the first
segment, the other segments with any texts before them, and a tail, which is empty if the glob is
tied to the end of the path. -/
def GlobMatches (raw path : String) : Prop :=
  ∃ anchored first rest gaps tail, Reads raw anchored (first :: rest) ∧
    gaps.length = rest.length ∧
    Percent.normalize path.toList =
      Percent.normalize first ++ weave gaps (rest.map Percent.normalize) ++ tail ∧
    (anchored = true → tail = [])

theorem splitAnchor_append (body : List Char) : splitAnchor (body ++ ['$']) = (body, true) := by
  simp [splitAnchor]

theorem splitAnchor_of_ne {source : List Char} (h : ∀ body, source ≠ body ++ ['$']) :
    splitAnchor source = (source, false) := by
  rw [splitAnchor, if_neg]
  intro hLast
  obtain ⟨body, hSource⟩ := List.getLast?_eq_some_iff.mp hLast
  exact h body hSource

theorem splitAnchor_eq_iff {source body : List Char} {anchored : Bool} :
    splitAnchor source = (body, anchored) ↔
      (anchored = true ↔ ∃ body, source = body ++ ['$']) ∧
        source = body ++ (if anchored then ['$'] else []) := by
  by_cases hLast : ∃ body, source = body ++ ['$']
  · obtain ⟨body', rfl⟩ := hLast
    cases anchored <;> simp [splitAnchor_append, eq_comm]
  · have hNot : splitAnchor source = (source, false) :=
      splitAnchor_of_ne fun body hSource => hLast ⟨body, hSource⟩
    cases anchored <;> simp [hNot, hLast]

/-- No segment between the stars of a text has a star. -/
theorem not_mem_of_mem_splitOn {text segment : List Char} (h : segment ∈ text.splitOn '*') :
    '*' ∉ segment := by
  induction text generalizing segment with
  | nil =>
    obtain rfl : segment = [] := by simpa [List.splitOn_nil] using h
    simp
  | cons c text ih =>
    obtain ⟨first, rest, hSplit⟩ := List.exists_cons_of_ne_nil (List.splitOn_ne_nil '*' text)
    rw [List.splitOn_cons_eq_if_modifyHead, hSplit] at h
    rw [hSplit] at ih
    split at h
    · rcases List.mem_cons.mp h with rfl | hRest
      · simp
      · exact ih hRest
    · rename_i hc
      rcases List.mem_cons.mp h with rfl | hRest
      · have hFirst := ih (List.mem_cons_self ..)
        simpa [hFirst] using fun hStar => hc (by simp [← hStar])
      · exact ih (List.mem_cons_of_mem _ hRest)

/-- A directive value reads as one glob only, which is the one that its pattern is made of. -/
theorem reads_iff {raw : String} {anchored : Bool} {segments : List (List Char)} :
    Reads raw anchored segments ↔ ∃ body,
      splitAnchor (Text.trim raw.toList) = (body, anchored) ∧
        segments = (rooted body).splitOn '*' := by
  constructor
  · rintro ⟨hAnchor, ⟨body, hTrim, hBody⟩, hStarless, hNonempty⟩
    refine ⟨body, splitAnchor_eq_iff.mpr ⟨hAnchor, hTrim⟩, ?_⟩
    rw [← hBody, List.splitOn_intercalate '*' hStarless hNonempty]
  · rintro ⟨body, hSplit, rfl⟩
    obtain ⟨hAnchor, hTrim⟩ := splitAnchor_eq_iff.mp hSplit
    exact ⟨hAnchor, ⟨body, hTrim, List.intercalate_splitOn '*'⟩,
      fun _ => not_mem_of_mem_splitOn, List.splitOn_ne_nil '*' _⟩

theorem exists_reads (raw : String) : ∃ anchored first rest, Reads raw anchored (first :: rest) := by
  let split := splitAnchor (Text.trim raw.toList)
  obtain ⟨first, rest, hSegments⟩ :=
    List.exists_cons_of_ne_nil (List.splitOn_ne_nil '*' (rooted split.1))
  exact ⟨split.2, first, rest, reads_iff.mpr ⟨split.1, rfl, hSegments.symm⟩⟩

/-- The literals of a pattern are the normal forms of the segments, except that the only segment of
the empty value is left out. -/
theorem literals_ofText {raw : String} {anchored : Bool} {segments : List (List Char)}
    (h : Reads raw anchored segments) : (ofText raw).anchored = anchored ∧
      ((ofText raw).literals = segments.map Percent.normalize ∨
        (ofText raw).literals = [] ∧ segments = [[]]) := by
  obtain ⟨body, hSplit, rfl⟩ := reads_iff.mp h
  refine ⟨by simp [ofText, hSplit], ?_⟩
  simp only [ofText, Pattern.segments, hSplit]
  cases rooted body with
  | nil => exact .inr ⟨rfl, rfl⟩
  | cons c rest => exact .inl rfl

theorem specificity_ofText (raw : String) :
    (ofText raw).specificity = (Text.trim raw.toList).length := by
  rw [specificity, ofText, String.length_ofList]

/-- A pattern matches what its reading fits. -/
theorem matchesNormal_ofText_iff {raw : String} {anchored : Bool} {first : List Char}
    {rest : List (List Char)} (h : Reads raw anchored (first :: rest)) (path : List Char) :
    (ofText raw).matchesNormal path = true ↔ ∃ after, path = Percent.normalize first ++ after ∧
      Fits anchored (rest.map Percent.normalize) after := by
  obtain ⟨rfl, hLiterals | ⟨hLiterals, hEmpty⟩⟩ := literals_ofText h
  · exact matchesNormal_iff hLiterals path
  · obtain ⟨rfl, rfl⟩ := List.cons_eq_cons.mp hEmpty
    rw [matchesNormal, hLiterals]
    cases (ofText raw).anchored <;> simp [Fits, Percent.normalize, Percent.scan]

/-- The matcher finds exactly the matches of the glob that a directive value stands for. -/
theorem matchesPath_iff_globMatches (raw path : String) :
    (ofText raw).matchesPath path = true ↔ GlobMatches raw path := by
  rw [matchesPath]
  constructor
  · intro hMatch
    obtain ⟨anchored, first, rest, hReads⟩ := exists_reads raw
    obtain ⟨after, hPath, hFits⟩ := (matchesNormal_ofText_iff hReads _).mp hMatch
    obtain ⟨gaps, tail, hLength, rfl, hTail⟩ := fits_iff_weave.mp hFits
    refine ⟨anchored, first, rest, gaps, tail, hReads, ?_, ?_, hTail⟩
    · rw [hLength, List.length_map]
    · rw [hPath, List.append_assoc]
  · rintro ⟨anchored, first, rest, gaps, tail, hReads, hLength, hPath, hTail⟩
    rw [matchesNormal_ofText_iff hReads]
    refine ⟨_, by rw [hPath, List.append_assoc], fits_iff_weave.mpr ⟨gaps, tail, ?_, rfl, hTail⟩⟩
    rw [hLength, List.length_map]

end RobotsTxt.Pattern
