import Mathlib.Data.List.DropRight
import Mathlib.Data.List.Infix
import RobotsTxt.Proofs.Encoding

/-! Which characters are the same as their escapes.  At a place that no escape before it reaches, the
normal form of a text does not change where a character is unreserved, or is no plain character, and
is escaped; any other character and its escape are told apart, and they are at every place. -/

namespace RobotsTxt.Percent

/-- A text is made of the escapes of some bytes, with digits of either case. -/
inductive Spells : List UInt8 → List Char → Prop where
  | nil : Spells [] []
  | cons {byte : UInt8} {bytes : List UInt8} {high low : Char} {rest : List Char}
      (hByte : byte? high low = some byte) (hRest : Spells bytes rest) :
      Spells (byte :: bytes) ('%' :: high :: low :: rest)

/-- A character that is unreserved, a star, a dollar sign, a space, a control, or not of ASCII. -/
def Transparent (c : Char) : Prop :=
  isUnreserved c = true ∨ c ∈ ['*', '$', ' '] ∨ c.toNat < 0x20 ∨ 0x7F ≤ c.toNat

instance (c : Char) : Decidable (Transparent c) :=
  inferInstanceAs (Decidable (isUnreserved c = true ∨ c ∈ ['*', '$', ' '] ∨ c.toNat < 0x20 ∨
    0x7F ≤ c.toNat))

theorem transparent_iff {c : Char} (h : c ≠ '%') :
    Transparent c ↔ (isPlain c = true → isUnreserved c = true) := by
  rw [Transparent, isPlain_iff]
  rw [ne_eq, ← Char.toNat_inj] at h
  simp only [List.mem_cons, List.not_mem_nil, or_false, ← Char.toNat_inj, Char.reduceToNat] at h ⊢
  by_cases hUnreserved : isUnreserved c = true
  · simp [hUnreserved]
  · simp only [hUnreserved, false_or, Bool.false_eq_true, imp_false]
    omega

/-! ### Places that no escape reaches -/

theorem not_mem_rtake_of_cons {c d : Char} {s : List Char} {n : Nat}
    (h : c ∉ (d :: s).rtake n) : c ∉ s.rtake n := by
  have hPrefix : s.reverse.take n <+: (d :: s).reverse.take n := by
    rw [List.reverse_cons]
    exact List.IsPrefix.take (List.prefix_append ..) n
  rw [List.rtake_eq_reverse_take_reverse, List.mem_reverse] at h ⊢
  exact fun hMem => h (hPrefix.subset hMem)

/-- A text falls apart behind two characters that are no percent signs. -/
theorem scan_append_of_rtake {a : List Char} (h : '%' ∉ a.rtake 2) (b : List Char) :
    scan (a ++ b) = scan a ++ scan b := by
  induction a using scan.induct with
  | case1 high low rest byte hByte ih =>
    have hRest := not_mem_rtake_of_cons (not_mem_rtake_of_cons (not_mem_rtake_of_cons h))
    simp only [List.cons_append, scan_escaped hByte, ih hRest]
  | case2 high low rest hByte ih =>
    -- The two characters behind the sign are in `a`, so what follows `a` makes no escape of it.
    have hStray : ∀ t, scan ('%' :: high :: low :: t) = .stray :: scan (high :: low :: t) := by
      intro t
      refine scan_stray ?_
      rintro x y z ⟨⟩
      exact hByte
    have hRest := ih (not_mem_rtake_of_cons h)
    simp only [List.cons_append] at hRest ⊢
    rw [hStray, hStray, hRest, List.cons_append]
  | case3 c rest hShort ih =>
    -- A sign here would be one of the last two characters of `a`.
    have hc : c ≠ '%' := by
      rintro rfl
      obtain _ | ⟨high, _ | ⟨low, more⟩⟩ := rest
      · exact h (by simp [List.rtake])
      · exact h (by simp [List.rtake])
      · exact hShort high low more rfl rfl
    rw [List.cons_append, scan_cons_of_ne hc, scan_cons_of_ne hc, ih (not_mem_rtake_of_cons h),
      List.cons_append]
  | case4 => rfl

/-! ### Characters and their escapes -/

theorem Spells.scan_append {bytes : List UInt8} {e : List Char} (h : Spells bytes e)
    (s : List Char) : scan (e ++ s) = bytes.map .escaped ++ scan s := by
  induction h with
  | nil => rfl
  | cons hByte _ ih =>
    simp only [List.cons_append, scan_escaped hByte, ih, List.map_cons]

theorem Spells.exists_eq {bytes : List UInt8} {e : List Char} (h : Spells bytes e)
    (hBytes : bytes ≠ []) : ∃ rest, e = '%' :: rest := by
  cases h with
  | nil => exact absurd rfl hBytes
  | cons => exact ⟨_, rfl⟩

/-- The normal form of the escapes of a character. -/
def normalEscapes (c : Char) : List Char :=
  ((String.utf8EncodeChar c).map Piece.escaped).flatMap Piece.normal

theorem normalEscapes_of_isUnreserved {c : Char} (h : isUnreserved c = true) :
    normalEscapes c = [c] := by
  have hAscii := (isPlain_iff.mp (isPlain_of_isUnreserved h)).2.1
  have hDecoded : Char.ofNat (UInt8.ofNat c.toNat).toNat = c := by
    rw [UInt8.toNat_ofNat', Nat.mod_eq_of_lt (by omega), Char.ofNat_toNat]
  rw [normalEscapes, utf8EncodeChar_of_lt (by omega), List.map_singleton, List.flatMap_singleton,
    Piece.normal, hDecoded, if_pos h]

theorem normalEscapes_of_not_isUnreserved {c : Char} (h : isUnreserved c = false) :
    normalEscapes c = escapeChar c := by
  rw [normalEscapes, List.flatMap_map]
  refine List.flatMap_congr fun byte hByte => ?_
  rw [Piece.normal, if_neg (by simp [isUnreserved_of_mem_utf8EncodeChar h hByte])]

theorem normalEscapes_eq_iff {c : Char} (h : c ≠ '%') :
    (Piece.char c).normal = normalEscapes c ↔ Transparent c := by
  rw [transparent_iff h, Piece.normal]
  by_cases hUnreserved : isUnreserved c = true
  · simp [hUnreserved, isPlain_of_isUnreserved hUnreserved, normalEscapes_of_isUnreserved]
  · rw [normalEscapes_of_not_isUnreserved (by simpa using hUnreserved)]
    by_cases hPlain : isPlain c = true
    · simp only [hPlain, hUnreserved, if_true]
      refine iff_of_false (fun hSame => ?_) (by simp)
      have hLonger := one_lt_length_escapeChar c
      rw [← hSame] at hLonger
      exact absurd hLonger (by simp)
    · simp [hPlain]

/-- Where a text falls apart at a character, the character and its escape have the same normal form
if the character is transparent. -/
theorem normalize_eq_iff_of_scan {a b e : List Char} {c : Char} (hc : c ≠ '%')
    (he : Spells (String.utf8EncodeChar c) e)
    (hCut : scan (a ++ c :: b) = scan a ++ scan (c :: b)) :
    normalize (a ++ c :: b) = normalize (a ++ e ++ b) ↔ Transparent c := by
  have hChar : normalize (a ++ c :: b) = normalize a ++ ((Piece.char c).normal ++ normalize b) := by
    rw [normalize, hCut, List.flatMap_append, ← normalize, ← normalize, normalize_cons_of_ne hc]
  have hEscaped : normalize (a ++ e ++ b) = normalize a ++ (normalEscapes c ++ normalize b) := by
    have hDigit : ∀ d ∈ (e ++ b).head?, Text.digitValue? d = none := by
      obtain ⟨rest, rfl⟩ := he.exists_eq String.utf8EncodeChar_ne_nil
      rintro _ ⟨⟩
      decide
    rw [List.append_assoc, normalize_append hDigit, normalize, normalize, he.scan_append,
      List.flatMap_append]
    rfl
  rw [hChar, hEscaped, List.append_cancel_left_eq, List.append_cancel_right_eq,
    normalEscapes_eq_iff hc]

/-- Behind two characters that are no percent signs, a character other than a percent sign is the
same as its escape, with digits of either case, if and only if it is transparent.  One that is not
is never the same as its escape, whatever stands before it. -/
theorem normalize_escaped_character {a b e : List Char} {c : Char} (hc : c ≠ '%')
    (he : Spells (String.utf8EncodeChar c) e) :
    ('%' ∉ a.rtake 2 → (normalize (a ++ c :: b) = normalize (a ++ e ++ b) ↔ Transparent c)) ∧
      (¬Transparent c → normalize (a ++ c :: b) ≠ normalize (a ++ e ++ b)) := by
  constructor
  · intro hBefore
    exact normalize_eq_iff_of_scan hc he (scan_append_of_rtake hBefore _)
  · intro hApart
    have hReserved : isUnreserved c = false := by
      rw [Bool.eq_false_iff]
      exact fun hUnreserved => hApart (.inl hUnreserved)
    have hDigit : ∀ d ∈ (c :: b).head?, Text.digitValue? d = none := by
      simpa using digitValue?_eq_none hReserved
    exact mt (normalize_eq_iff_of_scan hc he (scan_append hDigit)).mp hApart

/-- A letter outside of ASCII is the same as its escapes, and a slash is not, not even behind a stray
percent sign. -/
theorem normalize_escaped_character_slash :
    ('\u00E9' ≠ '%' ∧ Spells (String.utf8EncodeChar '\u00E9') "%c3%A9".toList ∧
      '%' ∉ "/caf".toList.rtake 2 ∧ Transparent '\u00E9' ∧
      normalize ("/caf".toList ++ '\u00E9' :: "s".toList) =
        normalize ("/caf".toList ++ "%c3%A9".toList ++ "s".toList)) ∧
    '/' ≠ '%' ∧ Spells (String.utf8EncodeChar '/') "%2f".toList ∧ ¬Transparent '/' ∧
      normalize ("/100%".toList ++ '/' :: "b".toList) ≠
        normalize ("/100%".toList ++ "%2f".toList ++ "b".toList) := by
  have hLetter : Spells (String.utf8EncodeChar '\u00E9') "%c3%A9".toList :=
    .cons (by decide) (.cons (by decide) .nil)
  have hSlash : Spells (String.utf8EncodeChar '/') "%2f".toList := .cons (by decide) .nil
  have hBefore : '%' ∉ "/caf".toList.rtake 2 := by decide
  refine ⟨⟨by decide, hLetter, hBefore, by decide, ?_⟩, by decide, hSlash, by decide, ?_⟩
  · exact ((normalize_escaped_character (by decide) hLetter).1 hBefore).mpr (by decide)
  · exact (normalize_escaped_character (by decide) hSlash).2 (by decide)

end RobotsTxt.Percent
