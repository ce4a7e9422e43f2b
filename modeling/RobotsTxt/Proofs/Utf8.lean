import RobotsTxt.Proofs.NormalForm
import RobotsTxt.Text.Decode

/-! Text in UTF-8 is read back as it was written.  A character outside of ASCII is a byte that tells
how many more there are, and then its bits, six in a byte.  The bounds on the first of these, which
keep out long forms, surrogates and numbers above U+10FFFF, hold for every character. -/

namespace RobotsTxt.Text

namespace Utf8

/-- The bytes of a text. -/
def encode (s : List Char) : List UInt8 := s.flatMap String.utf8EncodeChar

@[simp] theorem encode_nil : encode [] = [] := rfl

@[simp] theorem encode_cons (c : Char) (s : List Char) :
    encode (c :: s) = String.utf8EncodeChar c ++ encode s := List.flatMap_cons

@[simp] theorem encode_append (s t : List Char) : encode (s ++ t) = encode s ++ encode t :=
  List.flatMap_append

/-! ### The first byte of a character -/

section Start

variable {n : Nat}

theorem start_one (h : n < 0x80) : start (UInt8.ofNat n) = ([Char.ofNat n], none) := by
  simp only [start, UInt8.toNat_ofNat_of_lt' (show n < 0x100 by omega), if_pos h]

theorem start_two (h : 0xC2 ≤ n) (hEnd : n < 0xE0) :
    start (UInt8.ofNat n) = ([], some ⟨1, 0x80, 0xBF, n % 0x20⟩) := by
  simp only [start, UInt8.toNat_ofNat_of_lt' (show n < 0x100 by omega)]
  rw [if_neg (by omega), if_neg (by omega), if_pos hEnd]

theorem start_three (h : 0xE0 ≤ n) (hEnd : n < 0xF0) : start (UInt8.ofNat n) =
    ([], some ⟨2, if n = 0xE0 then 0xA0 else 0x80, if n = 0xED then 0x9F else 0xBF, n % 0x10⟩) := by
  simp only [start, UInt8.toNat_ofNat_of_lt' (show n < 0x100 by omega)]
  rw [if_neg (by omega), if_neg (by omega), if_neg (by omega)]
  by_cases hLow : n = 0xE0
  · simp [hLow]
  · by_cases hHigh : n = 0xED
    · simp [hHigh]
    · simp [hLow, hHigh, hEnd]

theorem start_four (h : 0xF0 ≤ n) (hEnd : n < 0xF5) : start (UInt8.ofNat n) =
    ([], some ⟨3, if n = 0xF0 then 0x90 else 0x80, if n = 0xF4 then 0x8F else 0xBF, n % 0x08⟩) := by
  simp only [start, UInt8.toNat_ofNat_of_lt' (show n < 0x100 by omega)]
  rw [if_neg (by omega), if_neg (by omega), if_neg (by omega), if_neg (by omega),
    if_neg (by omega), if_neg (by omega)]
  by_cases hLow : n = 0xF0
  · simp [hLow]
  · by_cases hHigh : n = 0xF4
    · simp [hHigh]
    · have hLess : n < 0xF4 := by omega
      simp [hLow, hHigh, hLess]

/-- The bytes that marks of UTF-16 start with start no character. -/
theorem start_of_le {byte : UInt8} (h : 0xF5 ≤ byte.toNat) : start byte = ([replacement], none) := by
  simp only [start]
  rw [if_neg (by omega), if_neg (by omega), if_neg (by omega), if_neg (by omega),
    if_neg (by omega), if_neg (by omega), if_neg (by omega), if_neg (by omega), if_neg (by omega)]

end Start

/-! ### The bytes behind the first one -/

/-- The bytes with the last bits of a number, six in each. -/
def tails (n : Nat) : Nat → List UInt8
  | 0 => []
  | k + 1 => UInt8.ofNat (n >>> (6 * k) % 0x40 + 0x80) :: tails n k

/-- What has been read of a character are the first bits of its number, and the next six are within
the bounds. -/
structure Pending.Reads (p : Pending) (n : Nat) : Prop where
  bits : p.bits = n >>> (6 * p.missing)
  missing : 0 < p.missing
  low : p.low ≤ n >>> (6 * (p.missing - 1)) % 0x40 + 0x80
  high : n >>> (6 * (p.missing - 1)) % 0x40 + 0x80 ≤ p.high

theorem toNat_tail (m : Nat) : (UInt8.ofNat (m % 0x40 + 0x80)).toNat = m % 0x40 + 0x80 :=
  UInt8.toNat_ofNat_of_lt' (show m % 0x40 + 0x80 < 0x100 by omega)

theorem run_tails {p : Pending} {n : Nat} (h : p.Reads n) (rest : List UInt8) :
    run (some p) (tails n p.missing ++ rest) = Char.ofNat n :: run none rest := by
  obtain ⟨missing, low, high, bits⟩ := p
  obtain ⟨hBits, hMissing, hLow, hHigh⟩ := h
  induction missing generalizing low high bits with
  | zero => exact absurd hMissing (Nat.lt_irrefl 0)
  | succ k ih =>
    simp only [Nat.add_sub_cancel] at hLow hHigh
    have hNext : bits * 0x40 + (n >>> (6 * k) % 0x40 + 0x80) % 0x40 = n >>> (6 * k) := by
      have hSplit : n >>> (6 * (k + 1)) = n >>> (6 * k) >>> 6 := by
        rw [Nat.mul_succ, Nat.shiftRight_add]
      simp only at hBits
      omega
    simp only [tails, List.cons_append, run, step, Pending.step, toNat_tail, hNext,
      if_pos (And.intro hLow hHigh)]
    cases k with
    | zero => simp [tails]
    | succ k =>
      rw [if_neg (by omega), List.nil_append, Nat.add_sub_cancel]
      refine ih 0x80 0xBF _ rfl (Nat.succ_pos k) ?_ ?_ <;> simp only [Nat.add_sub_cancel]
      · omega
      · omega

section Number

variable {n : Nat}

theorem reads_two (h : 0x80 ≤ n) (hEnd : n < 0x800) :
    Pending.Reads ⟨1, 0x80, 0xBF, (n / 0x40 % 0x20 + 0xC0) % 0x20⟩ n := by
  refine ⟨?_, Nat.succ_pos 0, ?_, ?_⟩ <;> simp only [Nat.reduceSub, Nat.reduceMul]
  · omega
  · omega
  · omega

/-- Numbers from U+0800 on are not written shorter, and there are no surrogates. -/
theorem reads_three (h : 0x800 ≤ n) (hEnd : n < 0x10000) (hGap : n < 0xD800 ∨ 0xDFFF < n) :
    Pending.Reads ⟨2, if n / 0x1000 % 0x10 + 0xE0 = 0xE0 then 0xA0 else 0x80,
      if n / 0x1000 % 0x10 + 0xE0 = 0xED then 0x9F else 0xBF,
      (n / 0x1000 % 0x10 + 0xE0) % 0x10⟩ n := by
  refine ⟨?_, Nat.succ_pos 1, ?_, ?_⟩ <;> simp only [Nat.reduceSub, Nat.reduceMul]
  · omega
  · split <;> omega
  · split <;> omega

/-- Numbers from U+10000 on are not written shorter, and none is above U+10FFFF. -/
theorem reads_four (h : 0x10000 ≤ n) (hEnd : n < 0x110000) :
    Pending.Reads ⟨3, if n / 0x40000 % 8 + 0xF0 = 0xF0 then 0x90 else 0x80,
      if n / 0x40000 % 8 + 0xF0 = 0xF4 then 0x8F else 0xBF, (n / 0x40000 % 8 + 0xF0) % 8⟩ n := by
  refine ⟨?_, Nat.succ_pos 2, ?_, ?_⟩ <;> simp only [Nat.reduceSub, Nat.reduceMul]
  · omega
  · split <;> omega
  · split <;> omega

end Number

/-- The bytes of a character outside of ASCII are one that starts it and those that are missing. -/
theorem exists_start {c : Char} (h : 0x80 ≤ c.toNat) : ∃ byte p,
    String.utf8EncodeChar c = byte :: tails c.toNat p.missing ∧ start byte = ([], some p) ∧
      p.Reads c.toNat := by
  have hValid : c.toNat < 0xD800 ∨ 0xDFFF < c.toNat ∧ c.toNat < 0x110000 := c.valid
  have hOne : ¬c.val.toNat ≤ 0x7f := Nat.not_le_of_lt h
  simp only [String.utf8EncodeChar, if_neg hOne]
  change ∃ byte p, (if c.toNat ≤ 0x7ff then _ else if c.toNat ≤ 0xffff then _ else _) = _ ∧ _
  split
  · have hStart := start_two (n := c.toNat / 0x40 % 0x20 + 0xC0) (by omega) (by omega)
    have hReads := reads_two h (show c.toNat < 0x800 by omega)
    exact ⟨_, _, by simp [tails], hStart, hReads⟩
  · split
    · have hStart := start_three (n := c.toNat / 0x1000 % 0x10 + 0xE0) (by omega) (by omega)
      have hReads := reads_three (n := c.toNat) (by omega) (by omega) (by omega)
      exact ⟨_, _, by simp [tails, Nat.shiftRight_eq_div_pow], hStart, hReads⟩
    · have hStart := start_four (n := c.toNat / 0x40000 % 8 + 0xF0) (by omega) (by omega)
      have hReads := reads_four (n := c.toNat) (by omega) (by omega)
      exact ⟨_, _, by simp [tails, Nat.shiftRight_eq_div_pow], hStart, hReads⟩

theorem run_encodeChar (c : Char) (rest : List UInt8) :
    run none (String.utf8EncodeChar c ++ rest) = c :: run none rest := by
  by_cases hAscii : c.toNat < 0x80
  · rw [Percent.utf8EncodeChar_of_lt hAscii, List.singleton_append, run, step, start_one hAscii,
      Char.ofNat_toNat, List.singleton_append]
  · obtain ⟨byte, p, hBytes, hStart, hReads⟩ := exists_start (Nat.le_of_not_lt hAscii)
    rw [hBytes, List.cons_append, run, step, hStart, List.nil_append, run_tails hReads,
      Char.ofNat_toNat]

theorem decode_encode (s : List Char) : decode (encode s) = s := by
  induction s with
  | nil => rfl
  | cons c s ih =>
    rw [encode_cons, decode, run_encodeChar, ← decode, ih]

/-- No text starts with a byte that starts no character. -/
theorem lt_of_encode {s : List Char} {byte : UInt8} {rest : List UInt8}
    (h : encode s = byte :: rest) : byte.toNat < 0xF5 := by
  cases s with
  | nil => simp at h
  | cons c s =>
    rw [encode_cons] at h
    by_cases hAscii : c.toNat < 0x80
    · rw [Percent.utf8EncodeChar_of_lt hAscii, List.singleton_append, List.cons.injEq] at h
      rw [← h.1, UInt8.toNat_ofNat_of_lt' (show c.toNat < 0x100 by omega)]
      omega
    · obtain ⟨first, p, hBytes, hStart, -⟩ := exists_start (Nat.le_of_not_lt hAscii)
      rw [hBytes, List.cons_append, List.cons.injEq] at h
      obtain rfl := h.1
      by_contra hLarge
      simp [start_of_le (Nat.le_of_not_lt hLarge)] at hStart

end Utf8

theorem dropMark_eq_self {s : List Char} (h : s.head? ≠ some '\uFEFF') : dropMark s = s := by
  cases s with
  | nil => rfl
  | cons c s => exact if_neg fun hMark => h (by rw [hMark]; rfl)

/-- A text that does not start with a byte-order mark is read back. -/
theorem decode_encode {s : List Char} (h : s.head? ≠ some '\uFEFF') :
    decode (Utf8.encode s) = s := by
  have hMarked : decodeMarked (Utf8.encode s) = s := by
    have hRead := Utf8.decode_encode s
    unfold decodeMarked
    split
    · rename_i rest hBytes
      have hMark : s = '\uFEFF' :: Utf8.decode rest := by
        rw [← hRead, hBytes]
        rfl
      exact absurd (by rw [hMark]; rfl) h
    · rename_i hBytes
      exact absurd (Utf8.lt_of_encode hBytes) (by decide)
    · rename_i hBytes
      exact absurd (Utf8.lt_of_encode hBytes) (by decide)
    · exact hRead
  rw [decode, hMarked, dropMark_eq_self h]

end RobotsTxt.Text
