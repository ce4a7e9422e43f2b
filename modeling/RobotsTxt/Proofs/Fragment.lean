import Mathlib.Data.Option.Basic
import RobotsTxt.Proofs.References
import RobotsTxt.Proofs.Spelling

/-! What a fragment does to a target.  A path and a URL with segments lose it, and so it does not
count there; any other text is taken for a path with the fragment in it.  An at sign that stands for
a whole authority is the exception: it is a URL only if nothing follows. -/

namespace RobotsTxt

namespace Url

/-! ### References -/

namespace Reference

def withFragment (r : Reference) (fragment : List Char) : Reference :=
  { r with fragment := some fragment }

/-- An authority that is an at sign alone, where nothing follows it. -/
def IsLoneSign (r : Reference) : Prop :=
  r.scheme.any (!·.isSpecial) = true ∧ r.body = "//@".toList ∧ r.query = none

instance (r : Reference) : Decidable r.IsLoneSign :=
  inferInstanceAs (Decidable (r.scheme.any (!·.isSpecial) = true ∧ r.body = "//@".toList ∧
    r.query = none))

theorem IsLoneSign.exists_name {r : Reference} (h : r.IsLoneSign) :
    ∃ name, r.scheme = some (.other name) := by
  obtain ⟨scheme, hScheme, hOther⟩ := Option.any_eq_true _ _ |>.mp h.1
  cases scheme with
  | other name => exact ⟨name, hScheme⟩
  | _ => contradiction

variable {t : List Char}

theorem ofText_fragment (hMark : '#' ∉ t) (hLast : ∀ c ∈ t.getLast?, isOuter c = false)
    (f : List Char) : ∃ fragment, ofText (t ++ '#' :: f) = (ofText t).withFragment fragment := by
  have hCut : '#' ∉ t.dropWhile isOuter := fun hMem =>
    hMark ((List.dropWhile_sublist _).subset hMem)
  have hTrim := trimOuter_append_cons (show isOuter '#' = false by decide) t f
  simp only [ofText, hTrim, trimOuter_eq_dropWhile hLast, cut_append_cons hCut,
    cut_of_not_mem hCut]
  exact ⟨_, rfl⟩

theorem fragment_ofText (hMark : '#' ∉ t) (hLast : ∀ c ∈ t.getLast?, isOuter c = false) :
    (ofText t).fragment = none := by
  have hCut : '#' ∉ t.dropWhile isOuter := fun hMem =>
    hMark ((List.dropWhile_sublist _).subset hMem)
  simp only [ofText, trimOuter_eq_dropWhile hLast, cut_of_not_mem hCut, Option.map_none]

end Reference

/-! ### URLs -/

def withFragment (u : Url) (fragment : List Char) : Url :=
  { u with fragment := some (encode inFragment fragment) }

theorem eq_of_splitCredentials {s : List Char} (h : splitCredentials s = (some [], [])) :
    s = ['@'] := by
  have hWhole := Reference.append_cut '@' s.reverse
  rw [splitCredentials, List.span_eq_takeWhile_dropWhile] at h
  rw [Reference.cut_eq] at hWhole
  cases hDrop : s.reverse.dropWhile (· ≠ '@') with
  | nil =>
    rw [hDrop] at h
    cases h
  | cons c credentials =>
    rw [hDrop] at h hWhole
    simp only [Prod.mk.injEq, Option.some.injEq, List.reverse_eq_nil_iff] at h
    rw [h.1, h.2] at hWhole
    exact List.reverse_eq_iff.mp hWhole.symm

variable [Domains]

theorem authority?_atEnd {s : List Char} (h : s ≠ ['@']) (scheme : Scheme) (a b : Bool) :
    authority? scheme s a = authority? scheme s b := by
  cases hSplit : splitCredentials s with
  | mk credentials rest =>
    have hGuard : (decide (credentials ≠ some []) || !rest.isEmpty) = true := by
      by_contra hNot
      simp only [Bool.or_eq_true, decide_eq_true_eq, Bool.not_eq_true', not_or, not_not,
        Bool.not_eq_false, List.isEmpty_iff] at hNot
      rw [hNot.1, hNot.2] at hSplit
      exact h (eq_of_splitCredentials hSplit)
    simp only [authority?, hSplit, hGuard, Bool.true_or]

theorem authority?_sign {scheme : Scheme} (h : scheme.isSpecial = true) (atEnd : Bool) :
    authority? scheme ['@'] atEnd = none := by
  have hSplit : splitCredentials ['@'] = (some [], []) := by decide
  cases atEnd with
  | false =>
    simp only [authority?, hSplit]
    rfl
  | true => simp [authority?, hSplit, h, hostAndPort?, splitHost]

/-- What follows an authority does not count, except for an at sign alone. -/
theorem authority?_congr {scheme : Scheme} {s : List Char} {a b : Bool}
    (h : scheme.isSpecial = true ∨ (s = ['@'] → a = b)) :
    authority? scheme s a = authority? scheme s b := by
  by_cases hSign : s = ['@']
  · rcases h with hSpecial | hSame
    · rw [hSign, authority?_sign hSpecial, authority?_sign hSpecial]
    · rw [hSame hSign]
  · exact authority?_atEnd hSign scheme a b

variable {r : Reference} (fragment : List Char)

theorem withAuthority?_fragment {scheme : Scheme} {s : List Char}
    (h : scheme.isSpecial = true ∨ ¬(s = ['@'] ∧ r.query = none)) :
    withAuthority? scheme (r.withFragment fragment) s =
      (withAuthority? scheme r s).map (·.withFragment fragment) := by
  cases hSpan : s.span fun c => !scheme.isSlash c with
  | mk front rest =>
    have hWhole : front ++ rest = s := by
      rw [List.span_eq_takeWhile_dropWhile, Prod.mk.injEq] at hSpan
      rw [← hSpan.1, ← hSpan.2, List.takeWhile_append_dropWhile]
    -- The at sign alone has a path or a query behind it, and so the fragment is not what ends it.
    have hSame : authority? scheme front (rest.isEmpty && r.query.isNone && false) =
        authority? scheme front (rest.isEmpty && r.query.isNone && r.fragment.isNone) := by
      refine authority?_congr (h.imp_right fun hNot hSign => ?_)
      have hEnd : (rest.isEmpty && r.query.isNone) = false := by
        by_contra hEnd
        rw [Bool.not_eq_false, Bool.and_eq_true, List.isEmpty_iff, Option.isNone_iff_eq_none]
          at hEnd
        rw [hSign, hEnd.1] at hWhole
        exact hNot ⟨hWhole.symm, hEnd.2⟩
      rw [hEnd]
      rfl
    simp only [withAuthority?, hSpan]
    show (authority? scheme front (rest.isEmpty && r.query.isNone && false)).bind _ = _
    rw [hSame]
    cases authority? scheme front (rest.isEmpty && r.query.isNone && r.fragment.isNone) <;> rfl

theorem File.ofHost?_fragment (s : List Char) : File.ofHost? (r.withFragment fragment) s =
    (File.ofHost? r s).map (·.withFragment fragment) := by
  unfold File.ofHost?
  cases s.span fun c => !Scheme.file.isSlash c with
  | mk front rest =>
    by_cases hDrive : FilePath.startsWithDrive s = true
    · simp only [hDrive, if_true]
      rfl
    · simp only [hDrive, Bool.false_eq_true, if_false]
      cases File.host? (Reference.counted front) with
      | none => rfl
      | some host => cases host <;> rfl

theorem File.ofReference?_fragment : File.ofReference? (r.withFragment fragment) =
    (File.ofReference? r).map (·.withFragment fragment) := by
  have hRaw : (r.withFragment fragment).raw = r.raw := rfl
  simp only [File.ofReference?, hRaw]
  cases File.afterSlash? r.raw with
  | none => rfl
  | some rest =>
    simp only
    cases File.afterSlash? rest with
    | none => rfl
    | some rest => exact File.ofHost?_fragment fragment rest

theorem other?_fragment {name : List Char} (h : ¬(r.body = "//@".toList ∧ r.query = none)) :
    other? (.other name) (r.withFragment fragment) =
      (other? (.other name) r).map (·.withFragment fragment) := by
  have hBody : (r.withFragment fragment).body = r.body := rfl
  simp only [other?, hBody]
  split
  · rename_i rest hSlashes
    refine withAuthority?_fragment fragment (.inr ?_)
    rintro ⟨rfl, hQuery⟩
    exact h ⟨hSlashes, hQuery⟩
  · rfl
  · rfl

theorem ofReference?_fragment (h : ¬r.IsLoneSign) :
    ofReference? (r.withFragment fragment) =
      (ofReference? r).map (·.withFragment fragment) := by
  have hScheme : (r.withFragment fragment).scheme = r.scheme := rfl
  have hBody : (r.withFragment fragment).body = r.body := rfl
  simp only [ofReference?, hScheme, hBody]
  split
  · rfl
  · exact File.ofReference?_fragment fragment
  · rename_i name hName
    refine other?_fragment fragment ?_
    rintro ⟨hSign, hQuery⟩
    exact h ⟨by rw [hName]; rfl, hSign, hQuery⟩
  · rename_i scheme hFile hOther hSome
    refine withAuthority?_fragment fragment (.inl ?_)
    cases scheme with
    | other name => exact absurd rfl (hOther name)
    | _ => rfl

/-- An at sign alone is read as an authority without a host. -/
theorem ofReference?_sign (h : r.IsLoneSign) (hFragment : r.fragment = none) :
    ∃ url, ofReference? r = some url ∧ url.path = .rooted [] ∧ url.query = none := by
  obtain ⟨name, hName⟩ := h.exists_name
  obtain ⟨-, hBody, hQuery⟩ := h
  have hSpan : ['@'].span (fun c => !Scheme.isSlash (.other name) c) = (['@'], []) := rfl
  simp only [ofReference?, hName, other?, hBody]
  show ∃ url, withAuthority? (.other name) r ['@'] = some url ∧ _
  simp only [withAuthority?, hSpan, hQuery, hFragment]
  exact ⟨_, rfl, rfl, by simp [withParts, queryOf, hQuery]⟩

theorem ofReference?_sign_fragment (h : r.IsLoneSign) :
    ofReference? (r.withFragment fragment) = none := by
  obtain ⟨name, hName⟩ := h.exists_name
  obtain ⟨-, hBody, hQuery⟩ := h
  have hScheme' : (r.withFragment fragment).scheme = some (.other name) := hName
  have hBody' : (r.withFragment fragment).body = "//@".toList := hBody
  have hSpan : ['@'].span (fun c => !Scheme.isSlash (.other name) c) = (['@'], []) := rfl
  have hAuthority : authority? (.other name) ['@'] false = none := rfl
  simp only [ofReference?, hScheme', other?, hBody']
  show withAuthority? (.other name) (r.withFragment fragment) ['@'] = none
  simp only [withAuthority?, hSpan]
  show (authority? (.other name) ['@'] (r.query.isNone && false)).bind _ = _
  rw [Bool.and_false, hAuthority]
  rfl

end Url

namespace Target

open Url

/-! ### Targets -/

/-- A path, or a URL with segments, other than one whose authority is an at sign alone. -/
def LosesFragment [Domains] (t : String) : Prop :=
  t.toList.head? = some '/' ∨
    (ofText? t.toList).any isHierarchical = true ∧ ¬(Reference.ofText t.toList).IsLoneSign

instance [Domains] (t : String) : Decidable (LosesFragment t) :=
  inferInstanceAs (Decidable (t.toList.head? = some '/' ∨
    (ofText? t.toList).any isHierarchical = true ∧ ¬(Reference.ofText t.toList).IsLoneSign))

theorem append_fragment (t f : String) :
    t ++ "#" ++ f = String.ofList (t.toList ++ '#' :: f.toList) := by
  rw [← String.toList_inj]
  simp

theorem head?_fragment {t : List Char} (h : t.head? ≠ some '/') (f : List Char) :
    (t ++ '#' :: f).head? ≠ some '/' := by
  cases t with
  | nil => simp
  | cons c t => simpa using h

section

variable [Domains] {t : String} (hMark : '#' ∉ t.toList)
  (hLast : ∀ c ∈ t.toList.getLast?, Reference.isOuter c = false) (f : String)

include hMark hLast

theorem pathAndQuery_fragment (h : LosesFragment t) :
    pathAndQuery (t ++ "#" ++ f) = pathAndQuery t := by
  by_cases hSlash : t.toList.head? = some '/'
  · obtain ⟨rest, hRest⟩ := List.head?_eq_some_iff.mp hSlash
    have hPath : '#' ∉ rest := fun hMem => hMark (hRest ▸ List.mem_cons_of_mem _ hMem)
    have hOwn := pathAndQuery_of_slash hPath
    rw [← hRest, String.ofList_toList] at hOwn
    rw [append_fragment, hRest, List.cons_append, pathAndQuery_slash,
      Reference.cut_append_cons hPath, hOwn, ← hRest, String.ofList_toList]
  · obtain ⟨hRooted, hSign⟩ := h.resolve_left hSlash
    obtain ⟨url, hUrl, hSegments⟩ := (Option.any_eq_true _ _).mp hRooted
    obtain ⟨fragment, hFragment⟩ := Reference.ofText_fragment hMark hLast f.toList
    have hRead : ofText? (t.toList ++ '#' :: f.toList) = some (url.withFragment fragment) := by
      rw [ofText?, hFragment, ofReference?_fragment fragment hSign, ← ofText?, hUrl]
      rfl
    have hKept : isHierarchical (url.withFragment fragment) = true := hSegments
    have hWhole := pathAndQuery_of_ne_slash (head?_fragment hSlash f.toList)
    have hOwn := pathAndQuery_of_ne_slash hSlash
    rw [String.ofList_toList] at hOwn
    rw [append_fragment, hWhole, hOwn, hRead, hUrl, Option.filter_some_pos hKept,
      Option.filter_some_pos hSegments]
    rfl

theorem pathAndQuery_kept (h : ¬LosesFragment t) :
    pathAndQuery (t ++ "#" ++ f) = String.ofList ('/' :: t.toList ++ '#' :: f.toList) ∧
      '#' ∉ (pathAndQuery t).toList := by
  obtain ⟨hSlash, hUrl⟩ := not_or.mp h
  have hWhole := pathAndQuery_of_ne_slash (head?_fragment hSlash f.toList)
  have hOwn := pathAndQuery_of_ne_slash hSlash
  obtain ⟨fragment, hFragment⟩ := Reference.ofText_fragment hMark hLast f.toList
  rw [String.ofList_toList] at hOwn
  rw [append_fragment, hWhole, hOwn]
  by_cases hSign : (Reference.ofText t.toList).IsLoneSign
  · obtain ⟨url, hUrl, hPath, hQuery⟩ :=
      ofReference?_sign hSign (Reference.fragment_ofText hMark hLast)
    have hRead : ofText? (t.toList ++ '#' :: f.toList) = none := by
      rw [ofText?, hFragment, ofReference?_sign_fragment fragment hSign]
    have hSegments : isHierarchical url = true := by rw [isHierarchical, hPath]
    rw [hRead, ofText?, hUrl, Option.filter_some_pos hSegments]
    refine ⟨rfl, ?_⟩
    show '#' ∉ (String.ofList (ofUrl url)).toList
    rw [ofUrl, hPath, hQuery]
    decide
  · have hNone : (ofText? t.toList).filter isHierarchical = none := by
      rw [Option.filter_eq_none_iff]
      intro url hSome hSegments
      exact hUrl ⟨(Option.any_eq_true _ _).mpr ⟨url, hSome, hSegments⟩, hSign⟩
    have hRead : (ofText? (t.toList ++ '#' :: f.toList)).filter isHierarchical = none := by
      rw [ofText?, hFragment, ofReference?_fragment fragment hSign, Option.filter_eq_none_iff]
      intro url hSome hSegments
      obtain ⟨own, hOwn, rfl⟩ := Option.map_eq_some_iff.mp hSome
      exact hUrl ⟨(Option.any_eq_true _ _).mpr ⟨own, hOwn, hSegments⟩, hSign⟩
    rw [hNone, hRead]
    refine ⟨rfl, ?_⟩
    simpa using hMark

theorem normalPath_fragment_ne (h : ¬LosesFragment t) :
    normalPath (t ++ "#" ++ f) ≠ normalPath t := by
  obtain ⟨hWhole, hOwn⟩ := pathAndQuery_kept hMark hLast f h
  intro hSame
  have hMem : '#' ∈ normalPath (t ++ "#" ++ f) := by
    rw [normalPath, hWhole, String.toList_ofList, Percent.normalize_append (by simp; decide),
      Percent.normalize_cons_of_isPlain (c := '#') (by decide)]
    simp
  rw [hSame] at hMem
  rcases Percent.mem_normalize hMem with hPercent | hUnreserved | ⟨-, hGiven⟩
  · exact absurd hPercent (by decide)
  · exact absurd hUnreserved (by decide)
  · exact hOwn hGiven

end

/-! ### Answers -/

/-- A fragment does not count exactly in a path and in a URL with segments, other than one whose
authority is an at sign alone.  Any other text is told apart from itself with a fragment by a file
with one rule. -/
theorem answers_of_fragment [Domains] {t : String} (hMark : '#' ∉ t.toList)
    (hLast : ∀ c ∈ t.toList.getLast?, Reference.isOuter c = false) (f : String) :
    (Alike (t ++ "#" ++ f) t ↔ LosesFragment t) ∧
      (¬LosesFragment t → ToldApart (t ++ "#" ++ f) t) := by
  have hApart : ¬LosesFragment t → ToldApart (t ++ "#" ++ f) t := by
    intro h
    refine toldApart_of_not ?_
    rintro ⟨hSame, -⟩
    exact normalPath_fragment_ne hMark hLast f h hSame
  refine ⟨alike_iff_of_toldApart ?_ hApart, hApart⟩
  intro h
  exact alike_of_pathAndQuery_eq (pathAndQuery_fragment hMark hLast f h)

/-- Tables that write one name in ASCII. -/
@[reducible] def booksTables : Domains where
  toAscii? bytes :=
    if bytes = "bücher.de".toList.flatMap String.utf8EncodeChar then some "xn--bcher-kva.de".toList
    else none

/-- The fragment of an address does not count if the tables have a form of its host.  That of an
address whose host they turn away counts, and so does that of a name in a scheme without paths. -/
theorem answers_of_fragment_talk :
    (∀ t ∈ ["https://bücher.de/x", "https://xn--a/x", "Talk:Foo"],
      '#' ∉ t.toList ∧ ∀ c ∈ t.toList.getLast?, Reference.isOuter c = false) ∧
    @Alike booksTables ("https://bücher.de/x" ++ "#" ++ "f") "https://bücher.de/x" ∧
    @ToldApart booksTables ("https://xn--a/x" ++ "#" ++ "f") "https://xn--a/x" ∧
    @ToldApart booksTables ("Talk:Foo" ++ "#" ++ "f") "Talk:Foo" := by
  have hTargets : ∀ t ∈ ["https://bücher.de/x", "https://xn--a/x", "Talk:Foo"],
      '#' ∉ t.toList ∧ ∀ c ∈ t.toList.getLast?, Reference.isOuter c = false := by
    rw [List.forall_mem_cons, List.forall_mem_cons, List.forall_mem_singleton]
    refine ⟨⟨by decide, ?_⟩, ⟨by decide, ?_⟩, by decide, ?_⟩ <;> rintro c ⟨⟩ <;> rfl
  refine ⟨hTargets, ?_, ?_, ?_⟩
  · obtain ⟨hMark, hLast⟩ := hTargets "https://bücher.de/x" (by decide)
    exact (@answers_of_fragment booksTables _ hMark hLast "f").1.mpr (by decide +kernel)
  · obtain ⟨hMark, hLast⟩ := hTargets "https://xn--a/x" (by decide)
    exact (@answers_of_fragment booksTables _ hMark hLast "f").2 (by decide +kernel)
  · obtain ⟨hMark, hLast⟩ := hTargets "Talk:Foo" (by decide)
    exact (@answers_of_fragment booksTables _ hMark hLast "f").2 (by decide +kernel)

/-- A rule against a path that is given without its slash does not reach it with a fragment. -/
theorem answers_of_fragment_index :
    (Policy.disallowing "/index.html$").allows "index.html" = false ∧
    (Policy.disallowing "/index.html$").allows ("index.html" ++ "#" ++ "f") = true := by
  rw [allows_disallowing, allows_disallowing]
  decide

end Target

end RobotsTxt
