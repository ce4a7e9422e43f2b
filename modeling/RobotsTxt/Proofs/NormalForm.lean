import Mathlib.Data.List.Basic
import RobotsTxt.Percent.Normal
import RobotsTxt.Url.Encode

/-! The normal form of path texts.  A text falls apart into pieces at any character that is no digit,
since only digits can complete an escape; each piece has a normal form that falls apart into pieces
of the same normal form, and so the normal form of a text is its own. -/

namespace RobotsTxt

theorem Text.digitValue?_hexDigit : ∀ n < 16, Text.digitValue? (Text.hexDigit n) = some n := by
  decide

theorem Text.isAlpha_iff {c : Char} : c.isAlpha = true ↔
    (65 ≤ c.toNat ∧ c.toNat ≤ 90) ∨ (97 ≤ c.toNat ∧ c.toNat ≤ 122) := by
  have hRanges : c.isAlpha = (decide (c.val ≥ 'A'.val ∧ c.val ≤ 'Z'.val) ||
      (decide (c.val ≥ 'a'.val) && decide (c.val ≤ 'z'.val))) := rfl
  rw [hRanges]
  simp [UInt32.le_iff_toNat_le]

namespace Percent

/-! ### Characters -/

theorem isPlain_iff {c : Char} : isPlain c = true ↔
    33 ≤ c.toNat ∧ c.toNat ≤ 126 ∧ c.toNat ≠ 37 ∧ c.toNat ≠ 42 ∧ c.toNat ≠ 36 := by
  simp [isPlain, Char.le_def, UInt32.le_iff_toNat_le, ← Char.toNat_inj, and_assoc]

theorem ne_percent_of_isPlain {c : Char} (h : isPlain c = true) : c ≠ '%' := by
  rintro rfl
  contradiction

theorem isUnreserved_iff {c : Char} : isUnreserved c = true ↔
    (48 ≤ c.toNat ∧ c.toNat ≤ 57) ∨ (65 ≤ c.toNat ∧ c.toNat ≤ 90) ∨
      (97 ≤ c.toNat ∧ c.toNat ≤ 122) ∨ c.toNat ∈ [45, 46, 95, 126] := by
  simp [isUnreserved, Char.isAlphanum, Text.isAlpha_iff, Char.isDigit, UInt32.le_iff_toNat_le,
    ← Char.toNat_inj]
  omega

theorem isPlain_of_isUnreserved {c : Char} (h : isUnreserved c = true) : isPlain c = true := by
  rw [isUnreserved_iff] at h
  rw [isPlain_iff]
  simp only [List.mem_cons, List.not_mem_nil, or_false] at h
  omega

/-- A digit is unreserved, so what is not cannot complete an escape. -/
theorem digitValue?_eq_none {c : Char} (h : isUnreserved c = false) :
    Text.digitValue? c = none := by
  rw [Bool.eq_false_iff, ne_eq, isUnreserved_iff] at h
  simp only [Text.digitValue?, Char.le_def, UInt32.le_iff_toNat_le, Bool.and_eq_true,
    decide_eq_true_eq, Char.toNat_val, Char.reduceToNat]
  rw [if_neg (by omega), if_neg (by omega), if_neg (by omega)]

/-! ### Pieces -/

theorem byte?_hexDigit (byte : UInt8) :
    byte? (Text.hexDigit (byte.toNat / 16)) (Text.hexDigit (byte.toNat % 16)) = some byte := by
  have hByte := byte.toNat_lt
  rw [byte?, Text.digitValue?_hexDigit _ (by omega), Text.digitValue?_hexDigit _ (by omega)]
  simp only [Nat.div_add_mod, UInt8.ofNat_toNat]

theorem scan_cons_of_ne {c : Char} (h : c ≠ '%') (s : List Char) :
    scan (c :: s) = .char c :: scan s := by
  simp [scan, h]

theorem scan_escaped {high low : Char} {byte : UInt8} (h : byte? high low = some byte)
    (s : List Char) : scan ('%' :: high :: low :: s) = .escaped byte :: scan s := by
  rw [scan, h]

/-- A percent sign starts no escape unless two digits follow. -/
theorem scan_stray {s : List Char}
    (h : ∀ high low rest, s = high :: low :: rest → byte? high low = none) :
    scan ('%' :: s) = .stray :: scan s := by
  match s with
  | [] => rfl
  | [c] => simp [scan]
  | high :: low :: rest => rw [scan, h high low rest rfl]

theorem byte?_eq_none {high low : Char}
    (h : Text.digitValue? high = none ∨ Text.digitValue? low = none) : byte? high low = none := by
  rcases h with hHigh | hLow
  · simp [byte?, hHigh]
  · cases hHigh : Text.digitValue? high <;> simp [byte?, hHigh, hLow]

/-- A text falls apart where no digit comes next. -/
theorem scan_append {a b : List Char} (h : ∀ c ∈ b.head?, Text.digitValue? c = none) :
    scan (a ++ b) = scan a ++ scan b := by
  induction a using scan.induct with
  | case1 high low rest byte hByte ih =>
    simp only [List.cons_append, scan_escaped hByte, ih]
  | case2 high low rest hByte ih =>
    have hLonger : ∀ x y z, (high :: low :: rest) ++ b = x :: y :: z → byte? x y = none := by
      rintro x y z ⟨⟩
      exact hByte
    have hAlone : ∀ x y z, high :: low :: rest = x :: y :: z → byte? x y = none := by
      rintro x y z ⟨⟩
      exact hByte
    rw [List.cons_append, scan_stray hLonger, scan_stray hAlone, ih, List.cons_append]
  | case3 c rest hShort ih =>
    by_cases hc : c = '%'
    · subst hc
      have hStray : ∀ x y z, rest ++ b = x :: y :: z → byte? x y = none := by
        intro x y z hRest
        match rest, hRest with
        | [], hRest => exact byte?_eq_none (.inl (h x (by simp [show b = x :: y :: z from hRest])))
        | [_], hRest =>
          obtain ⟨-, rfl⟩ := List.cons_eq_cons.mp hRest
          exact byte?_eq_none (.inr (h y (by simp)))
        | x :: y :: z, _ => exact absurd rfl (hShort x y z rfl)
      rw [List.cons_append, scan_stray hStray, scan_stray fun x y z hRest => ?_, ih]
      · rfl
      · exact absurd hRest (hShort x y z rfl)
    · rw [List.cons_append, scan_cons_of_ne hc, scan_cons_of_ne hc, ih, List.cons_append]
  | case4 => rfl

/-! ### Escapes -/

theorem scan_escapes (bytes : List UInt8) (s : List Char) :
    scan (bytes.flatMap escape ++ s) = bytes.map .escaped ++ scan s := by
  induction bytes with
  | nil => rfl
  | cons byte bytes ih =>
    have hFirst := scan_escaped (byte?_hexDigit byte) (bytes.flatMap escape ++ s)
    rw [ih] at hFirst
    simpa [escape] using hFirst

theorem isUnreserved_hexDigit : ∀ n < 16, isUnreserved (Text.hexDigit n) = true := by decide

theorem mem_escape {c : Char} {byte : UInt8} (h : c ∈ escape byte) :
    c = '%' ∨ isUnreserved c = true := by
  have hByte := byte.toNat_lt
  simp only [escape, List.mem_cons, List.not_mem_nil, or_false] at h
  rcases h with rfl | rfl | rfl
  · exact .inl rfl
  · exact .inr (isUnreserved_hexDigit _ (by omega))
  · exact .inr (isUnreserved_hexDigit _ (by omega))

theorem mem_escapeChar {c d : Char} (h : d ∈ escapeChar c) : d = '%' ∨ isUnreserved d = true := by
  obtain ⟨byte, -, hMem⟩ := List.mem_flatMap.mp h
  exact mem_escape hMem

theorem utf8EncodeChar_of_lt {c : Char} (h : c.toNat < 128) :
    String.utf8EncodeChar c = [UInt8.ofNat c.toNat] := by
  have hValue : c.val.toNat ≤ 127 := Nat.le_of_lt_succ h
  simp only [String.utf8EncodeChar, if_pos hValue]
  rfl

/-- The bytes of a character outside of ASCII are no characters of ASCII. -/
theorem le_of_mem_utf8EncodeChar {c : Char} (h : 128 ≤ c.toNat) {byte : UInt8}
    (hByte : byte ∈ String.utf8EncodeChar c) : 128 ≤ byte.toNat := by
  have hValue : ¬c.val.toNat ≤ 127 := Nat.not_le_of_lt h
  have hHigh : ∀ n, 128 ≤ n → n < 256 → 128 ≤ (UInt8.ofNat n).toNat := by
    intro n hLow hLess
    rwa [UInt8.toNat_ofNat', Nat.mod_eq_of_lt hLess]
  simp only [String.utf8EncodeChar, if_neg hValue] at hByte
  split at hByte
  · simp only [List.mem_cons, List.not_mem_nil, or_false] at hByte
    rcases hByte with rfl | rfl <;> exact hHigh _ (by omega) (by omega)
  · split at hByte
    · simp only [List.mem_cons, List.not_mem_nil, or_false] at hByte
      rcases hByte with rfl | rfl | rfl <;> exact hHigh _ (by omega) (by omega)
    · simp only [List.mem_cons, List.not_mem_nil, or_false] at hByte
      rcases hByte with rfl | rfl | rfl | rfl <;> exact hHigh _ (by omega) (by omega)

theorem toNat_ofNat_toNat (byte : UInt8) : (Char.ofNat byte.toNat).toNat = byte.toNat := by
  have hByte := byte.toNat_lt
  have hValid : byte.toNat.isValidChar := .inl (by omega)
  rw [Char.ofNat, dif_pos hValid]
  rfl

theorem isUnreserved_of_mem_utf8EncodeChar {c : Char} (h : isUnreserved c = false) {byte : UInt8}
    (hByte : byte ∈ String.utf8EncodeChar c) : isUnreserved (Char.ofNat byte.toNat) = false := by
  by_cases hAscii : c.toNat < 128
  · rw [utf8EncodeChar_of_lt hAscii, List.mem_singleton] at hByte
    rw [hByte, UInt8.toNat_ofNat', Nat.mod_eq_of_lt (by omega), Char.ofNat_toNat]
    exact h
  · have hHigh := le_of_mem_utf8EncodeChar (Nat.le_of_not_lt hAscii) hByte
    rw [Bool.eq_false_iff, ne_eq, isUnreserved_iff, toNat_ofNat_toNat]
    simp only [List.mem_cons, List.not_mem_nil, or_false]
    omega

/-! ### The normal forms of pieces -/

/-- The normal form of a piece is a plain character that stands for the same bytes, or the escapes of
these, and then they are no unreserved characters. -/
theorem Piece.normal_cases (p : Piece) :
    (∃ c, isPlain c = true ∧ p.normal = [c] ∧ p.bytes = String.utf8EncodeChar c) ∨
      (∀ byte ∈ p.bytes, isUnreserved (Char.ofNat byte.toNat) = false) ∧
        p.normal = p.bytes.flatMap escape := by
  cases p with
  | escaped byte =>
    by_cases hUnreserved : isUnreserved (Char.ofNat byte.toNat) = true
    · have hPlain := isPlain_of_isUnreserved hUnreserved
      have hAscii := (isPlain_iff.mp hPlain).2.1
      refine .inl ⟨_, hPlain, if_pos hUnreserved, ?_⟩
      rw [utf8EncodeChar_of_lt (by omega), toNat_ofNat_toNat, UInt8.ofNat_toNat, bytes]
    · exact .inr ⟨by simpa [bytes] using hUnreserved, by simp [normal, bytes, hUnreserved]⟩
  | stray =>
    have hReserved : isUnreserved (Char.ofNat (0x25 : UInt8).toNat) = false := by decide
    exact .inr ⟨by simpa [bytes] using hReserved, by simp [normal, bytes]⟩
  | char c =>
    by_cases hPlain : isPlain c = true
    · exact .inl ⟨c, hPlain, if_pos hPlain, rfl⟩
    · have hReserved : isUnreserved c = false := by
        rw [Bool.eq_false_iff]
        exact mt isPlain_of_isUnreserved hPlain
      exact .inr ⟨fun _ => isUnreserved_of_mem_utf8EncodeChar hReserved, if_neg hPlain⟩

/-! ### Normal forms -/

theorem normalize_append {a b : List Char} (h : ∀ c ∈ b.head?, Text.digitValue? c = none) :
    normalize (a ++ b) = normalize a ++ normalize b := by
  rw [normalize, scan_append h, List.flatMap_append]
  rfl

theorem normalize_cons_of_ne {c : Char} (h : c ≠ '%') (s : List Char) :
    normalize (c :: s) = (Piece.char c).normal ++ normalize s := by
  rw [normalize, scan_cons_of_ne h, List.flatMap_cons]
  rfl

theorem normalize_cons_of_isPlain {c : Char} (h : isPlain c = true) (s : List Char) :
    normalize (c :: s) = c :: normalize s := by
  rw [normalize_cons_of_ne (ne_percent_of_isPlain h), Piece.normal, if_pos h]
  rfl

/-- The escapes of bytes that are no unreserved characters are their own normal forms. -/
theorem normalize_escapes {bytes : List UInt8}
    (h : ∀ byte ∈ bytes, isUnreserved (Char.ofNat byte.toNat) = false) (s : List Char) :
    normalize (bytes.flatMap escape ++ s) = bytes.flatMap escape ++ normalize s := by
  rw [normalize, scan_escapes, List.flatMap_append, List.flatMap_map]
  congr 1
  refine List.flatMap_congr fun byte hByte => ?_
  rw [Piece.normal, if_neg (by simp [h byte hByte])]

theorem normalize_escapeChar {c : Char} (h : isUnreserved c = false) (s : List Char) :
    normalize (escapeChar c ++ s) = escapeChar c ++ normalize s :=
  normalize_escapes (fun _ => isUnreserved_of_mem_utf8EncodeChar h) s

theorem normalize_piece_append (p : Piece) (s : List Char) :
    normalize (p.normal ++ s) = p.normal ++ normalize s := by
  obtain ⟨c, hPlain, hNormal, -⟩ | ⟨hReserved, hNormal⟩ := p.normal_cases
  · rw [hNormal]
    exact normalize_cons_of_isPlain hPlain s
  · rw [hNormal]
    exact normalize_escapes hReserved s

/-- A normal form is its own normal form. -/
theorem normalize_normalize (s : List Char) : normalize (normalize s) = normalize s := by
  have hPieces : ∀ ps : List Piece,
      normalize (ps.flatMap Piece.normal) = ps.flatMap Piece.normal := by
    intro ps
    induction ps with
    | nil => rfl
    | cons p ps ih => rw [List.flatMap_cons, normalize_piece_append, ih]
  exact hPieces (scan s)

theorem mem_of_char_mem_scan {c : Char} {s : List Char} (h : .char c ∈ scan s) : c ∈ s := by
  induction s using scan.induct with
  | case1 high low rest byte hByte ih =>
    rw [scan_escaped hByte, List.mem_cons] at h
    have hRest := ih (h.resolve_left (by simp))
    simp [hRest]
  | case2 high low rest hByte ih =>
    rw [scan, hByte, List.mem_cons] at h
    exact List.mem_cons_of_mem _ (ih (h.resolve_left (by simp)))
  | case3 d rest hShort ih =>
    by_cases hd : d = '%'
    · subst hd
      rw [scan_stray fun x y z hRest => absurd hRest (hShort x y z rfl), List.mem_cons] at h
      exact List.mem_cons_of_mem _ (ih (h.resolve_left (by simp)))
    · rw [scan_cons_of_ne hd, List.mem_cons, Piece.char.injEq] at h
      exact List.mem_cons.mpr (h.imp_right ih)
  | case4 => simp [scan] at h

/-- A normal form consists of percent signs, unreserved characters, and plain characters of the
text. -/
theorem mem_normalize {c : Char} {s : List Char} (h : c ∈ normalize s) :
    c = '%' ∨ isUnreserved c = true ∨ isPlain c = true ∧ c ∈ s := by
  obtain ⟨p, hPiece, hMem⟩ := List.mem_flatMap.mp h
  have hEscape : ∀ {byte}, c ∈ escape byte → c = '%' ∨ isUnreserved c = true ∨
      isPlain c = true ∧ c ∈ s := fun hByte => (mem_escape hByte).imp_right .inl
  cases p with
  | escaped byte =>
    rw [Piece.normal] at hMem
    split at hMem
    · rename_i hByte
      rw [List.mem_singleton] at hMem
      exact .inr (.inl (hMem ▸ hByte))
    · exact hEscape hMem
  | stray => exact hEscape hMem
  | char d =>
    rw [Piece.normal] at hMem
    split at hMem
    · rename_i hPlain
      rw [List.mem_singleton] at hMem
      subst hMem
      exact .inr (.inr ⟨hPlain, mem_of_char_mem_scan hPiece⟩)
    · exact (mem_escapeChar hMem).imp_right .inl

end Percent

end RobotsTxt
