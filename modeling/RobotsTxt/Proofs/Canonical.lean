import RobotsTxt.Proofs.Encoding
import RobotsTxt.Proofs.StrayPercent

/-! The form that normal forms have.  It is canonical: plain characters, and escapes of bytes that are
no unreserved characters, written with upper-case digits.  The texts of that form are exactly those
that are their own normal forms, and the normal form of a text stands for the same bytes as the
text. -/

namespace RobotsTxt.Percent

/-! ### Canonical texts -/

/-- The digits of escapes in normal forms. -/
def upperDigits : List Char := "0123456789ABCDEF".toList

/-- A text of plain characters and of escapes with upper-case digits, whose bytes are no unreserved
characters. -/
inductive Canonical : List Char → Prop where
  | nil : Canonical []
  | plain {c : Char} {s : List Char} (hPlain : isPlain c = true) (hRest : Canonical s) :
      Canonical (c :: s)
  | escape {high low : Char} {byte : UInt8} {s : List Char} (hHigh : high ∈ upperDigits)
      (hLow : low ∈ upperDigits) (hByte : byte? high low = some byte)
      (hReserved : isUnreserved (Char.ofNat byte.toNat) = false) (hRest : Canonical s) :
      Canonical ('%' :: high :: low :: s)

theorem upperDigits_eq : upperDigits = (List.range 16).map Text.hexDigit := by decide

theorem mem_upperDigits {c : Char} : c ∈ upperDigits ↔ ∃ n < 16, Text.hexDigit n = c := by
  simp only [upperDigits_eq, List.mem_map, List.mem_range]

/-- An escape with upper-case digits is the one that is written for its byte. -/
theorem escape_eq {high low : Char} {byte : UInt8} (hHigh : high ∈ upperDigits)
    (hLow : low ∈ upperDigits) (hByte : byte? high low = some byte) :
    escape byte = ['%', high, low] := by
  obtain ⟨h, hh, rfl⟩ := mem_upperDigits.mp hHigh
  obtain ⟨l, hl, rfl⟩ := mem_upperDigits.mp hLow
  rw [byte?, Text.digitValue?_hexDigit h hh, Text.digitValue?_hexDigit l hl] at hByte
  obtain rfl := Option.some.inj hByte
  have hValue : (UInt8.ofNat (16 * h + l)).toNat = 16 * h + l := by
    rw [UInt8.toNat_ofNat', Nat.mod_eq_of_lt (by omega)]
  rw [escape, hValue, show (16 * h + l) / 16 = h by omega, show (16 * h + l) % 16 = l by omega]

theorem Canonical.escapes {bytes : List UInt8} {s : List Char}
    (h : ∀ byte ∈ bytes, isUnreserved (Char.ofNat byte.toNat) = false) (hRest : Canonical s) :
    Canonical (bytes.flatMap Percent.escape ++ s) := by
  induction bytes with
  | nil => exact hRest
  | cons byte bytes ih =>
    obtain ⟨hFirst, hMore⟩ := List.forall_mem_cons.mp h
    have hLt := byte.toNat_lt
    exact .escape (mem_upperDigits.mpr ⟨byte.toNat / 16, by omega, rfl⟩)
      (mem_upperDigits.mpr ⟨byte.toNat % 16, by omega, rfl⟩) (byte?_hexDigit byte) hFirst (ih hMore)

theorem Canonical.piece (p : Piece) {s : List Char} (hRest : Canonical s) :
    Canonical (p.normal ++ s) := by
  obtain ⟨c, hPlain, hNormal, -⟩ | ⟨hReserved, hNormal⟩ := p.normal_cases
  · rw [hNormal]
    exact .plain hPlain hRest
  · rw [hNormal]
    exact .escapes hReserved hRest

theorem canonical_normalize (s : List Char) : Canonical (normalize s) := by
  rw [normalize]
  induction scan s with
  | nil => exact .nil
  | cons p ps ih => exact .piece p ih

theorem Canonical.normalize_eq {s : List Char} (h : Canonical s) : normalize s = s := by
  induction h with
  | nil => rfl
  | plain hPlain _ ih => rw [normalize_cons_of_isPlain hPlain, ih]
  | escape hHigh hLow hByte hReserved _ ih =>
    rw [normalize_escaped hByte, ih, Piece.normal, if_neg (by simp [hReserved]),
      escape_eq hHigh hLow hByte]
    rfl

theorem Canonical.malformed_eq {s : List Char} (h : Canonical s) : malformed s = false := by
  induction h with
  | nil => rfl
  | plain hPlain _ ih =>
    rw [malformed, scan_cons_of_ne (ne_percent_of_isPlain hPlain)]
    simpa [malformed] using ih
  | escape _ _ hByte _ _ ih =>
    rw [malformed, scan_escaped hByte]
    simpa [malformed] using ih

theorem canonical_of_plain {s : List Char} (h : ∀ c ∈ s, isPlain c = true) : Canonical s := by
  induction s with
  | nil => exact .nil
  | cons c s ih =>
    obtain ⟨hFirst, hRest⟩ := List.forall_mem_cons.mp h
    exact .plain hFirst (ih hRest)

/-- The canonical texts are those that are their own normal forms. -/
theorem canonical_iff (s : List Char) : Canonical s ↔ normalize s = s := by
  constructor
  · exact Canonical.normalize_eq
  · intro hOwn
    rw [← hOwn]
    exact canonical_normalize s

/-! ### The bytes that a text stands for -/

/-- The bytes of a text with its escapes decoded.  A percent sign that starts no escape stands for
itself. -/
def decode : List Char → List UInt8
  | '%' :: high :: low :: rest =>
    match byte? high low with
    | some byte => byte :: decode rest
    | none => 0x25 :: decode (high :: low :: rest)
  | c :: rest => String.utf8EncodeChar c ++ decode rest
  | [] => []

theorem decode_eq (s : List Char) : decode s = (scan s).flatMap Piece.bytes := by
  induction s using scan.induct with
  | case1 high low rest byte hByte ih => simp [decode, scan, hByte, ih, Piece.bytes]
  | case2 high low rest hByte ih => simp [decode, scan, hByte, ih, Piece.bytes]
  | case3 c rest hShort ih =>
    rw [decode, ih]
    · by_cases hc : c = '%'
      · -- Too little is left for an escape, so the sign is a stray one.
        subst hc
        rw [scan_stray fun high low more hRest => absurd hRest (hShort high low more rfl)]
        rfl
      · rw [scan_cons_of_ne hc]
        rfl
    · exact hShort
  | case4 => rfl

theorem decode_cons_of_ne {c : Char} (h : c ≠ '%') (s : List Char) :
    decode (c :: s) = String.utf8EncodeChar c ++ decode s := by
  rw [decode_eq, decode_eq, scan_cons_of_ne h]
  rfl

theorem decode_escapes (bytes : List UInt8) (s : List Char) :
    decode (bytes.flatMap escape ++ s) = bytes ++ decode s := by
  rw [decode_eq, decode_eq, scan_escapes, List.flatMap_append, List.flatMap_map]
  simp [Piece.bytes]

/-- The normal form of a piece stands for the bytes of the piece. -/
theorem decode_piece_append (p : Piece) (s : List Char) :
    decode (p.normal ++ s) = p.bytes ++ decode s := by
  obtain ⟨c, hPlain, hNormal, hBytes⟩ | ⟨-, hNormal⟩ := p.normal_cases
  · rw [hNormal, hBytes]
    exact decode_cons_of_ne (ne_percent_of_isPlain hPlain) s
  · rw [hNormal]
    exact decode_escapes p.bytes s

theorem decode_normalize (s : List Char) : decode (normalize s) = decode s := by
  rw [decode_eq s, normalize]
  induction scan s with
  | nil => rfl
  | cons p ps ih => rw [List.flatMap_cons, List.flatMap_cons, decode_piece_append, ih]

/-! ### Normal forms -/

/-- The normal form of a text is canonical and stands for the same bytes, and a canonical text is its
own normal form.  So the normal form of a normal form is itself, and a text of plain characters may
be returned as it is.  A text is malformed where two digits do not follow a percent sign, and a
canonical one is not. -/
theorem normalize_canonical (s : List Char) :
    Canonical (normalize s) ∧ (Canonical s ↔ normalize s = s) ∧
      (Canonical s → malformed s = false) ∧ normalize (normalize s) = normalize s ∧
      ((∀ c ∈ s, isPlain c = true) → normalize s = s ∧ malformed s = false) ∧
      decode (normalize s) = decode s ∧ (malformed s = true ↔ HasStray s) := by
  have hNormal := canonical_normalize s
  refine ⟨hNormal, canonical_iff s, Canonical.malformed_eq, hNormal.normalize_eq, fun hPlain => ?_,
    decode_normalize s, malformed_iff s⟩
  have hCanonical := canonical_of_plain hPlain
  exact ⟨hCanonical.normalize_eq, hCanonical.malformed_eq⟩

/-- Escapes that make an escape when they are decoded do not stand for what that escape does. -/
theorem normalize_canonical_digits :
    normalize "/%%34%31".toList = "/%2541".toList ∧ Canonical "/%2541".toList ∧
      normalize "/%2541".toList = "/%2541".toList ∧ malformed "/%2541".toList = false ∧
      decode "/%2541".toList = decode "/%%34%31".toList ∧
      (∀ c ∈ "/fish?id=1".toList, isPlain c = true) ∧
      normalize "/fish?id=1".toList = "/fish?id=1".toList := by
  have hEscape : normalize "/%%34%31".toList = "/%2541".toList := by decide
  have hPlain : ∀ c ∈ "/fish?id=1".toList, isPlain c = true := List.all_eq_true.mp (by decide)
  obtain ⟨hCanonical, -, -, -, -, hDecode, -⟩ := normalize_canonical "/%%34%31".toList
  rw [hEscape] at hCanonical hDecode
  obtain ⟨-, hOwn, hFormed, -, -, -, -⟩ := normalize_canonical "/%2541".toList
  obtain ⟨-, -, -, -, hFish, -, -⟩ := normalize_canonical "/fish?id=1".toList
  exact ⟨hEscape, hCanonical, hOwn.mp hCanonical, hFormed hCanonical, hDecode, hPlain,
    (hFish hPlain).1⟩

end RobotsTxt.Percent
