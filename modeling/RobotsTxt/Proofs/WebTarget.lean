import RobotsTxt.Proofs.Spelling
import RobotsTxt.Proofs.WebAddress

/-! Paths as targets and the addresses that have them.  An address escapes its path and its query,
each by a set of its own, and rules see the normal form of that; so a path and its address get the
same answers exactly if the address escapes no character that is plain. -/

namespace RobotsTxt.Target

open Url

/-- Characters that are plain, and that an address escapes in its path. -/
def pathMarks : List Char := ['"', '<', '>', '\x60', '\x7b', '\x7d']

/-- Characters that are plain, and that an address escapes in its query. -/
def queryMarks : List Char := ['"', '<', '>', '\'']

def Unmarked (p : List Char) : Prop :=
  (∀ c ∈ (Reference.cut '?' p).1, c ∉ pathMarks) ∧
    ∀ query ∈ (Reference.cut '?' p).2, ∀ c ∈ query, c ∉ queryMarks

theorem unmarked_iff {p : List Char} : Unmarked p ↔
    (Reference.cut '?' p).1.any (· ∈ pathMarks) = false ∧
      ((Reference.cut '?' p).2.getD []).any (· ∈ queryMarks) = false := by
  rw [Unmarked, List.any_eq_false, List.any_eq_false]
  cases (Reference.cut '?' p).2 <;> simp

instance (p : List Char) : Decidable (Unmarked p) := decidable_of_iff' _ unmarked_iff

theorem mem_pathMarks_iff {c : Char} (hQuery : c ≠ '?') (hFragment : c ≠ '#') :
    c ∈ pathMarks ↔ inPath c = true ∧ Percent.isPlain c = true := by
  rw [inPath_iff, Percent.isPlain_iff, pathMarks]
  rw [ne_eq, ← Char.toNat_inj] at hQuery hFragment
  simp only [List.mem_cons, List.not_mem_nil, or_false, ← Char.toNat_inj, Char.reduceToNat]
    at hQuery hFragment ⊢
  omega

theorem mem_queryMarks_iff {c : Char} (hFragment : c ≠ '#') :
    c ∈ queryMarks ↔ inSpecialQuery c = true ∧ Percent.isPlain c = true := by
  rw [inSpecialQuery_iff, Percent.isPlain_iff, queryMarks]
  rw [ne_eq, ← Char.toNat_inj] at hFragment
  simp only [List.mem_cons, List.not_mem_nil, or_false, ← Char.toNat_inj, Char.reduceToNat]
    at hFragment ⊢
  omega

/-! ### Normal forms -/

variable {p : List Char}

theorem normalize_path_iff (h : IsPathText p) :
    Percent.normalize (encode inPath (Reference.cut '?' p).1) =
        Percent.normalize (Reference.cut '?' p).1 ↔
      ∀ c ∈ (Reference.cut '?' p).1, c ∉ pathMarks := by
  rw [Percent.normalize_encode_eq_iff escapable_inPath]
  refine forall₂_congr fun c hc => ?_
  have hQuery : c ≠ '?' := by
    rintro rfl
    exact Reference.not_mem_cut _ _ hc
  have hFragment : c ≠ '#' := by
    rintro rfl
    exact h.marks '#' (Reference.mem_of_mem_cut hc) (by decide)
  rw [mem_pathMarks_iff hQuery hFragment]
  simp

theorem normalize_query_iff (h : IsPathText p) {query : List Char}
    (hCut : (Reference.cut '?' p).2 = some query) :
    Percent.normalize (encode inSpecialQuery query) = Percent.normalize query ↔
      ∀ c ∈ query, c ∉ queryMarks := by
  rw [Percent.normalize_encode_eq_iff escapable_inSpecialQuery]
  refine forall₂_congr fun c hc => ?_
  have hFragment : c ≠ '#' := by
    rintro rfl
    exact h.marks '#' (Reference.mem_of_mem_query hCut hc) (by decide)
  rw [mem_queryMarks_iff hFragment]
  simp

theorem normalize_append_query (path query : List Char) :
    Percent.normalize (path ++ '?' :: query) =
      Percent.normalize path ++ '?' :: Percent.normalize query := by
  rw [Percent.normalize_append (by simp; decide), Percent.normalize_cons_of_isPlain (by decide)]

theorem normalize_escaped_iff (h : IsPathText p) :
    Percent.normalize (escaped p) = Percent.normalize p ↔ Unmarked p := by
  have hPath := normalize_path_iff h
  rw [escaped, Unmarked, ← hPath]
  cases hCut : (Reference.cut '?' p).2 with
  | none => simp [Reference.cut_eq_self hCut]
  | some query =>
    have hQuery := normalize_query_iff h hCut
    have hParts := Reference.eq_append_of_cut hCut
    have hPathLength := Percent.length_normalize_le_encode escapable_inPath (Reference.cut '?' p).1
    have hQueryLength := Percent.length_normalize_le_encode escapable_inSpecialQuery query
    simp only [Option.map_some, Option.getD_some, Option.mem_some_iff, forall_eq', ← hQuery]
    conv_lhs => rhs; rw [hParts]
    rw [normalize_append_query, normalize_append_query]
    constructor
    · intro hSame
      -- Neither part is shorter when it is escaped, so none makes up for what the other has more.
      have hLength := congrArg List.length hSame
      simp only [List.length_append, List.length_cons] at hLength
      obtain ⟨hFirst, hRest⟩ := List.append_inj hSame (by omega)
      exact ⟨hFirst, (List.cons.inj hRest).2⟩
    · rintro ⟨hFirst, hRest⟩
      rw [hFirst, hRest]

/-! ### Spellings -/

theorem eq_of_encode_eq {set : Char → Bool} {s t : List Char} (h : encode set s = t)
    (ht : '%' ∉ t) : s = t := by
  induction s generalizing t with
  | nil => exact h
  | cons c s ih =>
    rw [← h, Percent.encode_cons] at ht ⊢
    split
    · rename_i hSet
      obtain ⟨rest, hEscape⟩ := Percent.exists_escapeChar_eq c
      simp [hSet, hEscape] at ht
    · rename_i hSet
      rw [if_neg hSet, List.mem_append, not_or] at ht
      rw [← ih rfl ht.2]
      rfl

theorem isRobots_escaped_iff : escaped p = "/robots.txt".toList ↔ p = "/robots.txt".toList := by
  constructor
  · intro h
    rw [escaped] at h
    cases hCut : (Reference.cut '?' p).2 with
    | none =>
      rw [hCut, Reference.cut_eq_self hCut] at h
      exact eq_of_encode_eq (by simpa using h) (by decide)
    | some query =>
      have hMem : '?' ∈ "/robots.txt".toList := by
        rw [← h, hCut]
        simp
      exact absurd hMem (by decide)
  · rintro rfl
    rfl

theorem not_mem_encode {set : Char → Bool} {s : List Char} (h : '#' ∉ s) : '#' ∉ encode set s := by
  intro hMem
  rcases mem_encode hMem with hOwn | hPercent | hUnreserved
  · exact h hOwn
  · exact absurd hPercent (by decide)
  · exact absurd hUnreserved (by decide)

theorem exists_escaped_eq (h : IsPathText p) : ∃ rest, escaped p = '/' :: rest ∧ '#' ∉ rest := by
  have hOwn : '#' ∉ p := fun hMem => h.marks '#' hMem (by decide)
  obtain ⟨rest, hPath, -, -⟩ := h.exists_cut_eq
  have hPart : '#' ∉ '/' :: rest := by
    rw [← hPath]
    exact fun hMem => hOwn (Reference.mem_of_mem_cut hMem)
  have hRest : '#' ∉ encode inPath rest := not_mem_encode fun hMem => hPart (.tail _ hMem)
  have hEncode : encode inPath ('/' :: rest) = '/' :: encode inPath rest := rfl
  rw [escaped, hPath, hEncode, List.cons_append]
  refine ⟨_, rfl, ?_⟩
  cases hCut : (Reference.cut '?' p).2 with
  | none => simpa using hRest
  | some query =>
    have hQuery : '#' ∉ query := fun hMem => hOwn (Reference.mem_of_mem_query hCut hMem)
    simpa [hRest] using not_mem_encode hQuery

theorem pathAndQuery_of_isPathText [Domains] {p : String} (h : IsPathText p.toList) :
    pathAndQuery p = p := by
  obtain ⟨rest, hRest⟩ := h.exists_eq
  have hFragment : '#' ∉ rest := by
    intro hMem
    exact h.marks '#' (by simp [hRest, hMem]) (by decide)
  have hSame := pathAndQuery_of_slash hFragment
  rwa [← hRest, String.ofList_toList] at hSame

theorem pathAndQuery_web [Domains] {host p : String} (hName : host ≠ "")
    (hHost : ∀ c ∈ host.toList, c.isAlpha = true) (h : IsPathText p.toList) :
    pathAndQuery ("https://" ++ host ++ p) = String.ofList (escaped p.toList) := by
  have hNonempty : host.toList ≠ [] := by simpa using hName
  obtain ⟨path, hUrl, hText⟩ := ofText?_web hNonempty hHost h
  have hSlash : ("https://".toList ++ host.toList ++ p.toList).head? ≠ some '/' := by
    intro hHead
    exact absurd (Option.some.inj hHead) (by decide)
  have hWhole : "https://" ++ host ++ p =
      String.ofList ("https://".toList ++ host.toList ++ p.toList) := by
    rw [← String.toList_append, ← String.toList_append, String.ofList_toList]
  have hQuery : (((Reference.cut '?' p.toList).2.map (encode inSpecialQuery)).map ('?' :: ·)).getD
      [] = ((Reference.cut '?' p.toList).2.map fun q => '?' :: encode inSpecialQuery q).getD [] := by
    rw [Option.map_map]
    rfl
  have hPath : (encode inPath (Reference.cut '?' p.toList).1).isEmpty = false := by
    obtain ⟨start, hStart, -, -⟩ := h.exists_cut_eq
    rw [hStart]
    rfl
  rw [hWhole, pathAndQuery_of_ne_slash hSlash, hUrl]
  show String.ofList (ofUrl _) = _
  rw [ofUrl, hText, hPath, hQuery, escaped]
  rfl

theorem normalPath_web_iff [Domains] {host p : String} (hName : host ≠ "")
    (hHost : ∀ c ∈ host.toList, c.isAlpha = true) (h : IsPathText p.toList) :
    normalPath ("https://" ++ host ++ p) = normalPath p ↔ Unmarked p.toList := by
  rw [normalPath, normalPath, pathAndQuery_web hName hHost h, pathAndQuery_of_isPathText h,
    String.toList_ofList, normalize_escaped_iff h]

theorem isRobots_web_iff [Domains] {host p : String} (hName : host ≠ "")
    (hHost : ∀ c ∈ host.toList, c.isAlpha = true) (h : IsPathText p.toList) :
    IsRobots ("https://" ++ host ++ p) ↔ IsRobots p := by
  have hSpelling := isRobots_escaped_iff (p := p.toList)
  rw [String.toList_inj] at hSpelling
  rw [IsRobots, IsRobots, pathAndQuery_web hName hHost h, pathAndQuery_of_isPathText h, ← hSpelling,
    ← String.toList_inj, String.toList_ofList]

/-! ### Answers -/

/-- An address gets the answers of its path with the characters escaped.  It gets those of the path
itself from every policy exactly if no plain character is escaped; otherwise a file with one rule
tells the two apart. -/
theorem answers_of_address [Domains] {host p : String} (hName : host ≠ "")
    (hHost : ∀ c ∈ host.toList, c.isAlpha = true) (h : IsPathText p.toList) :
    Alike ("https://" ++ host ++ p) (String.ofList (escaped p.toList)) ∧
      (Alike ("https://" ++ host ++ p) p ↔ Unmarked p.toList) ∧
      (¬Unmarked p.toList → ToldApart ("https://" ++ host ++ p) p) := by
  have hNormal := normalPath_web_iff hName hHost h
  have hApart : ¬Unmarked p.toList → ToldApart ("https://" ++ host ++ p) p := by
    intro hMarked
    refine toldApart_of_not ?_
    rintro ⟨hSame, -⟩
    exact hMarked (hNormal.mp hSame)
  refine ⟨?_, alike_iff_of_toldApart ?_ hApart, hApart⟩
  · obtain ⟨rest, hEscaped, hFragment⟩ := exists_escaped_eq h
    refine alike_of_pathAndQuery_eq ?_
    rw [pathAndQuery_web hName hHost h, hEscaped, pathAndQuery_of_slash hFragment]
  · intro hUnmarked
    exact alike_iff.mpr ⟨hNormal.mpr hUnmarked, isRobots_web_iff hName hHost h⟩

/-- A space and a letter outside of ASCII are escaped in both, and an apostrophe only in the query of
the address. -/
theorem answers_of_address_spaced :
    ("Example" ≠ "" ∧ (∀ c ∈ "Example".toList, c.isAlpha = true) ∧
      IsPathText "/a b/'\u00E9'?q=%7E".toList ∧ IsPathText "/a b/\u00E9?q='~'".toList) ∧
    Alike ("https://" ++ "Example" ++ "/a b/'\u00E9'?q=%7E") "/a b/'\u00E9'?q=%7E" ∧
    ToldApart ("https://" ++ "Example" ++ "/a b/\u00E9?q='~'") "/a b/\u00E9?q='~'" := by
  have hName : "Example" ≠ "" := by decide
  have hHost : ∀ c ∈ "Example".toList, c.isAlpha = true := List.all_eq_true.mp (by decide)
  have hPath : IsPathText "/a b/'\u00E9'?q=%7E".toList := by decide
  have hMarked : IsPathText "/a b/\u00E9?q='~'".toList := by decide
  refine ⟨⟨hName, hHost, hPath, hMarked⟩, ?_, ?_⟩
  · exact (answers_of_address hName hHost hPath).2.1.mpr (by decide)
  · exact (answers_of_address hName hHost hMarked).2.2 (by decide)

/-- A rule against a path with a quote does not reach the address that has it. -/
theorem answers_of_address_quoted : IsPathText "/a\"b".toList ∧
    (Policy.disallowing "/a\"b").allows "/a\"b" = false ∧
    (Policy.disallowing "/a\"b").allows "https://h/a\"b" = true := by
  have hHost : ∀ c ∈ "h".toList, c.isAlpha = true := List.all_eq_true.mp (by decide)
  have hPath : IsPathText "/a\"b".toList := by decide
  have hAddress : pathAndQuery "https://h/a\"b" = "/a%22b" :=
    pathAndQuery_web (show "h" ≠ "" by decide) hHost hPath
  rw [allows_disallowing, allows_disallowing, normalPath, normalPath, hAddress]
  decide

end RobotsTxt.Target
