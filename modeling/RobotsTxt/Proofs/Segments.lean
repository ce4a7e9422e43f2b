import RobotsTxt.Proofs.Encoding
import RobotsTxt.Url.Parse

/-! How the path of a URL is read where no segment of it is dots.  Escapes neither make dots nor hide
them, so the path that is read is the one that is written, with its characters escaped. -/

namespace RobotsTxt.Url

/-! ### Escaped characters -/

theorem inPath_iff {c : Char} : inPath c = true ↔ c.toNat ≤ 0x20 ∨ 0x7E < c.toNat ∨
    c ∈ ['"', '#', '<', '>', '?', '\x60', '\x7b', '\x7d'] := by
  simp [inPath, inFragment, isUnsafe, ← Char.toNat_inj]
  omega

theorem inSpecialQuery_iff {c : Char} : inSpecialQuery c = true ↔ c.toNat ≤ 0x20 ∨
    0x7E < c.toNat ∨ c ∈ ['"', '#', '<', '>', '\''] := by
  simp [inSpecialQuery, inQuery, isUnsafe, ← Char.toNat_inj]
  omega

theorem escapable_inPath : Percent.Escapable inPath := by
  intro c h
  rw [inPath_iff] at h
  rw [Bool.eq_false_iff, ne_eq, Percent.isUnreserved_iff, ne_eq, ← Char.toNat_inj]
  simp only [List.mem_cons, List.not_mem_nil, or_false, ← Char.toNat_inj, Char.reduceToNat] at h ⊢
  omega

theorem escapable_inSpecialQuery : Percent.Escapable inSpecialQuery := by
  intro c h
  rw [inSpecialQuery_iff] at h
  rw [Bool.eq_false_iff, ne_eq, Percent.isUnreserved_iff, ne_eq, ← Char.toNat_inj]
  simp only [List.mem_cons, List.not_mem_nil, or_false, ← Char.toNat_inj, Char.reduceToNat] at h ⊢
  omega

theorem mem_encode {set : Char → Bool} {c : Char} {s : List Char} (h : c ∈ encode set s) :
    c ∈ s ∨ c = '%' ∨ Percent.isUnreserved c = true := by
  obtain ⟨d, hd, hMem⟩ := List.mem_flatMap.mp h
  split at hMem
  · exact .inr (Percent.mem_escapeChar hMem)
  · rw [List.mem_singleton] at hMem
    exact .inl (hMem ▸ hd)

theorem encode_eq_nil_iff {set : Char → Bool} {s : List Char} : encode set s = [] ↔ s = [] := by
  constructor
  · intro h
    cases s with
    | nil => rfl
    | cons c s =>
      obtain ⟨rest, hEscape⟩ := Percent.exists_escapeChar_eq c
      rw [Percent.encode_cons, List.append_eq_nil_iff] at h
      split at h
      · simp [hEscape] at h
      · simp at h
  · rintro rfl
    rfl

/-! ### Dots -/

namespace Path

theorem dropPoint?_eq_some_iff {s rest : List Char} : dropPoint? s = some rest ↔
    s = '.' :: rest ∨ ∃ e, (e = 'e' ∨ e = 'E') ∧ s = '%' :: '2' :: e :: rest := by
  constructor
  · intro h
    unfold dropPoint? at h
    split at h
    · exact .inl (by rw [Option.some.inj h])
    · split at h
      · rename_i e more he
        obtain rfl := Option.some.inj h
        exact .inr ⟨e, by simpa using he, rfl⟩
      · contradiction
    · contradiction
  · rintro (rfl | ⟨e, rfl | rfl, rfl⟩) <;> rfl

theorem eq_point_of_hexDigit {byte : UInt8} {e : Char}
    (hHigh : Text.hexDigit (byte.toNat / 16) = '2') (hLow : Text.hexDigit (byte.toNat % 16) = e)
    (he : e = 'e' ∨ e = 'E') : byte = 0x2E := by
  have hByte := Percent.byte?_hexDigit byte
  rw [hHigh, hLow] at hByte
  rcases he with rfl | rfl <;> exact (Option.some.inj hByte).symm

theorem dropPoint?_escapeChar {c : Char} (h : Percent.isUnreserved c = false) (s : List Char) :
    dropPoint? (Percent.escapeChar c ++ s) = none := by
  obtain ⟨byte, bytes, hBytes⟩ := List.exists_cons_of_ne_nil (String.utf8EncodeChar_ne_nil (c := c))
  have hMem : byte ∈ String.utf8EncodeChar c := by simp [hBytes]
  have hReserved := Percent.isUnreserved_of_mem_utf8EncodeChar h hMem
  rw [Percent.escapeChar, hBytes, List.flatMap_cons, Option.eq_none_iff_forall_ne_some]
  intro rest hDrop
  rcases dropPoint?_eq_some_iff.mp hDrop with hPoint | ⟨e, he, hEscape⟩
  · simp [Percent.escape] at hPoint
  · simp only [Percent.escape, List.cons_append, List.nil_append, List.cons.injEq, true_and]
      at hEscape
    obtain ⟨hHigh, hLow, -⟩ := hEscape
    rw [eq_point_of_hexDigit hHigh hLow he] at hReserved
    exact absurd hReserved (by decide)

/-- Escapes neither make points nor hide them. -/
theorem dropPoint?_encode (s : List Char) :
    dropPoint? (encode inPath s) = (dropPoint? s).map (encode inPath) := by
  have hOwn : ∀ {s rest : List Char} {c : Char}, c ≠ '%' → encode inPath s = c :: rest →
      ∃ more, s = c :: more ∧ encode inPath more = rest := by
    intro s rest c hc h
    exact (Percent.encode_eq_cons h).resolve_left fun ⟨_, _, _, _, hEscape, _⟩ => hc hEscape
  cases hDrop : dropPoint? s with
  | some rest =>
    rcases dropPoint?_eq_some_iff.mp hDrop with rfl | ⟨e, rfl | rfl, rfl⟩ <;> rfl
  | none =>
    -- An escape of a point is the text's own, since points are not escaped.
    rw [Option.map_none, Option.eq_none_iff_forall_ne_some]
    intro rest hRest
    suffices hSome : ∃ more, dropPoint? s = some more by simp [hDrop] at hSome
    rcases dropPoint?_eq_some_iff.mp hRest with hPoint | ⟨e, he, hEscape⟩
    · obtain ⟨more, hs, -⟩ := hOwn (by decide) hPoint
      exact ⟨more, dropPoint?_eq_some_iff.mpr (.inl hs)⟩
    · rcases Percent.encode_eq_cons hEscape with ⟨d, more, -, hd, -, hSame⟩ | ⟨more, hs, hMore⟩
      · have hNone := dropPoint?_escapeChar (escapable_inPath d hd).1 (encode inPath more)
        rw [hSame, dropPoint?_eq_some_iff.mpr (.inr ⟨e, he, rfl⟩)] at hNone
        contradiction
      · obtain ⟨digit, rfl, hDigit⟩ := hOwn (by decide) hMore
        obtain ⟨after, rfl, -⟩ := hOwn (by rcases he with rfl | rfl <;> decide) hDigit
        exact ⟨after, dropPoint?_eq_some_iff.mpr (.inr ⟨e, he, hs⟩)⟩

theorem isDots_encode (s : List Char) : isDots (encode inPath s) = isDots s := by
  have hEmpty : ∀ o : Option (List Char),
      o.map (encode inPath) = some [] ↔ o = some [] := by
    intro o
    cases o <;> simp [encode_eq_nil_iff]
  have hBind : ∀ o : Option (List Char),
      (o.map (encode inPath)).bind dropPoint? = (o.bind dropPoint?).map (encode inPath) := by
    intro o
    cases o <;> simp [dropPoint?_encode]
  simp only [isDots, isHere, isAbove, dropPoint?_encode, hBind, hEmpty]

theorem resolve_of_not_dots {segments : List (List Char)}
    (h : ∀ segment ∈ segments, isDots segment = false) (above : List (List Char)) :
    resolve above segments = above ++ segments := by
  induction segments generalizing above with
  | nil => simp [resolve]
  | cons segment segments ih =>
    obtain ⟨hFirst, hRest⟩ := List.forall_mem_cons.mp h
    have hStep : step above segment = above ++ [segment] := by
      obtain ⟨hHere, hAbove⟩ : isHere segment = false ∧ isAbove segment = false := by
        simpa [isDots] using hFirst
      simp [step, hHere, hAbove]
    cases segments with
    | nil => simp [resolve, hStep, hFirst]
    | cons next segments =>
      rw [resolve, hStep, ih hRest, List.append_assoc, List.singleton_append]
      exact List.cons_ne_nil _ _

end Path

/-! ### Paths -/

theorem segments_eq (scheme : Scheme) {s : List Char} (h : '\\' ∉ s) :
    segments scheme s = (s.splitOn '/').map (encode inPath) := by
  rw [segments, List.splitOn_eq_splitOnP]
  congr 1
  induction s with
  | nil => rfl
  | cons c s ih =>
    rw [List.mem_cons, not_or] at h
    have hSlash : scheme.isSlash c = (c == '/') := by
      simp [Scheme.isSlash, Ne.symm h.1, Bool.beq_eq_decide_eq]
    rw [List.splitOnP_cons_eq_if_modifyHead, List.splitOnP_cons_eq_if_modifyHead, hSlash, ih h.2]

theorem flatMap_splitOn (s : List Char) :
    ((s.splitOn '/').map (encode inPath)).flatMap ('/' :: ·) = '/' :: encode inPath s := by
  induction s with
  | nil => rfl
  | cons c s ih =>
    rw [List.splitOn_cons_eq_if_modifyHead]
    by_cases hc : c = '/'
    · subst hc
      rw [if_pos (by decide), List.map_cons, List.flatMap_cons, ih]
      rfl
    · rw [if_neg (by simpa using hc)]
      cases hSplit : s.splitOn '/' with
      | nil => exact absurd hSplit (List.splitOn_ne_nil _ _)
      | cons first others =>
        rw [hSplit, List.map_cons, List.flatMap_cons, List.cons_append] at ih
        rw [List.modifyHead_cons, List.map_cons, List.flatMap_cons, Percent.encode_cons,
          Percent.encode_cons, List.cons_append, List.append_assoc, (List.cons.inj ih).2]

/-- A path without dots is read as it is written. -/
theorem text_pathAfterAuthority (scheme : Scheme) {s : List Char} (h : '\\' ∉ s)
    (hDots : ∀ segment ∈ s.splitOn '/', Path.isDots segment = false) :
    (pathAfterAuthority scheme ('/' :: s)).text = encode inPath ('/' :: s) := by
  have hEncoded : ∀ segment ∈ (s.splitOn '/').map (encode inPath),
      Path.isDots segment = false := by
    intro segment hSegment
    obtain ⟨written, hWritten, rfl⟩ := List.mem_map.mp hSegment
    rw [Path.isDots_encode, hDots written hWritten]
  have hSlash : scheme.isSlash '/' = true := by simp [Scheme.isSlash]
  rw [pathAfterAuthority, if_pos hSlash, segments_eq scheme h, Path.resolve_of_not_dots hEncoded,
    List.nil_append, Path.text, flatMap_splitOn]
  rfl

end RobotsTxt.Url
