import Mathlib.Data.Bool.AllAny
import Mathlib.Tactic.SplitIfs
import RobotsTxt.Proofs.Bodies
import RobotsTxt.Proofs.Concatenation
import RobotsTxt.Proofs.SmallLetters

/-! Noise in a body stays where it is.  No byte of ASCII continues a sequence of UTF-8, so what has
been read of a character ends before it, as it would at the end of the body, and what stands behind
it is read as if the body started there. -/

namespace RobotsTxt.Text

namespace Utf8

/-! ### Sequences that are cut off -/

/-- What is missing of a sequence are bytes that start no character. -/
structure Pending.Continues (p : Pending) : Prop where
  missing : 0 < p.missing
  low : 0x80 ≤ p.low
  high : p.high ≤ 0xBF

theorem start_cases (byte : UInt8) :
    (∃ c, start byte = ([c], none) ∧ (c.toNat < 0x80 ∨ c = replacement)) ∨
      ∃ p, start byte = ([], some p) ∧ p.Continues := by
  by_cases hAscii : byte.toNat < 0x80
  · refine .inl ⟨Char.ofNat byte.toNat, by simp only [start, if_pos hAscii], .inl ?_⟩
    rwa [toNat_ofNat (.inl (by omega))]
  · simp only [start, if_neg hAscii]
    split_ifs
    all_goals first
      | exact .inl ⟨_, rfl, .inr rfl⟩
      | exact .inr ⟨_, rfl, by constructor <;> simp⟩

theorem start_continues (byte : UInt8) : ∀ p ∈ (start byte).2, p.Continues := by
  intro p hp
  rcases start_cases byte with ⟨c, hStart, -⟩ | ⟨other, hStart, hContinues⟩
  · simp [hStart] at hp
  · rw [hStart] at hp
    obtain rfl := Option.some.inj hp
    exact hContinues

theorem step_continues (state : Option Pending) (byte : UInt8) :
    ∀ p ∈ (step state byte).2, p.Continues := by
  cases state with
  | none => exact start_continues byte
  | some p =>
    intro next hNext
    simp only [step, Pending.step] at hNext
    split at hNext
    · split at hNext
      · contradiction
      · rename_i hMissing
        obtain rfl := Option.some.inj hNext
        exact ⟨Nat.sub_pos_of_lt (Nat.lt_of_not_le hMissing), Nat.le_refl _, Nat.le_refl _⟩
    · exact start_continues byte next hNext

theorem run_ascii {state : Option Pending} (h : ∀ p ∈ state, p.Continues) {byte : UInt8}
    (hByte : byte.toNat < 0x80) (rest : List UInt8) :
    run state (byte :: rest) = run state [] ++ Char.ofNat byte.toNat :: run none rest := by
  have hStart : start byte = ([Char.ofNat byte.toNat], none) := by simp only [start, if_pos hByte]
  cases state with
  | none => simp [run, step, hStart]
  | some p =>
    have hLow := (h p rfl).low
    have hOut : ¬(p.low ≤ byte.toNat ∧ byte.toNat ≤ p.high) := by omega
    simp [run, step, Pending.step, hOut, hStart]

theorem run_append_ascii {state : Option Pending} (h : ∀ p ∈ state, p.Continues) {byte : UInt8}
    (hByte : byte.toNat < 0x80) (a b : List UInt8) :
    run state (a ++ byte :: b) = run state a ++ Char.ofNat byte.toNat :: run none b := by
  induction a generalizing state with
  | nil => exact run_ascii h hByte b
  | cons first a ih =>
    rw [List.cons_append, run, ih (step_continues state first), run, List.append_assoc]

/-! ### Where a mark is read -/

theorem toNat_eq_of_ofNat {n : Nat} {c : Char} (h : Char.ofNat n = c) (hc : 0 < c.toNat) :
    c.toNat = n := by
  subst h
  by_cases hValid : n.isValidChar
  · exact toNat_ofNat hValid
  · rw [Char.ofNat, dif_neg hValid] at hc
    contradiction

/-- A character outside of ASCII is read from its own bytes: what has been read of it are its first
bits, and the next bytes are those with the others. -/
theorem reads_of_run {p : Pending} (hp : p.Continues) {c : Char} (hc : 0x80 ≤ c.toNat)
    (hKnown : c ≠ replacement) {bytes : List UInt8} {more : List Char}
    (h : run (some p) bytes = c :: more) : p.Reads c.toNat ∧ tails c.toNat p.missing <+: bytes := by
  obtain ⟨missing, low, high, bits⟩ := p
  obtain ⟨hMissing, hLow, hHigh⟩ := hp
  simp only at hMissing hLow hHigh
  induction missing generalizing low high bits bytes with
  | zero => exact absurd hMissing (Nat.lt_irrefl 0)
  | succ k ih =>
    cases bytes with
    | nil => exact absurd (List.cons.inj h).1.symm hKnown
    | cons byte bytes =>
      simp only [run, step, Pending.step] at h
      split at h
      · rename_i hRange
        have hRest : bits * 0x40 + byte.toNat % 0x40 = c.toNat >>> (6 * k) ∧
            tails c.toNat k <+: bytes := by
          cases k with
          | zero =>
            have hChar : Char.ofNat (bits * 0x40 + byte.toNat % 0x40) = c := (List.cons.inj h).1
            exact ⟨(toNat_eq_of_ofNat hChar (by omega)).symm, List.nil_prefix⟩
          | succ k =>
            rw [if_neg (by omega), List.nil_append, Nat.add_sub_cancel] at h
            obtain ⟨hReads, hTails⟩ :=
              ih _ _ _ h (Nat.succ_pos k) (Nat.le_refl _) (Nat.le_refl _)
            exact ⟨hReads.bits, hTails⟩
        obtain ⟨hNumber, hTails⟩ := hRest
        have hByte : c.toNat >>> (6 * k) % 0x40 + 0x80 = byte.toNat := by omega
        have hBits : c.toNat >>> (6 * (k + 1)) = bits := by
          rw [Nat.mul_succ, Nat.shiftRight_add]
          omega
        refine ⟨⟨hBits.symm, hMissing, ?_, ?_⟩, ?_⟩
        · simpa only [Nat.add_sub_cancel, hByte] using hRange.1
        · simpa only [Nat.add_sub_cancel, hByte] using hRange.2
        · rw [tails, hByte, UInt8.ofNat_toNat]
          exact List.cons_prefix_cons.mpr ⟨rfl, hTails⟩
      · exact absurd (List.cons.inj h).1.symm hKnown

theorem start_of_reads_mark {byte : UInt8} {p : Pending} (hStart : start byte = ([], some p))
    (hReads : p.Reads 0xFEFF) : byte = 0xEF ∧ p.missing = 2 := by
  have hByte := byte.toNat_lt
  obtain ⟨hBits, -, hLow, -⟩ := hReads
  simp only [start] at hStart
  split_ifs at hStart <;> cases hStart <;> simp at hBits hLow
  · omega
  · refine ⟨UInt8.toNat_inj.mp (?_ : byte.toNat = 0xEF), rfl⟩
    omega
  · omega

/-- A body is read with a mark at its start only if it has the bytes of the mark there. -/
theorem mark_prefix_of_decode {bytes : List UInt8} (h : (decode bytes).head? = some '\uFEFF') :
    mark <+: bytes := by
  cases bytes with
  | nil => simp [decode, run] at h
  | cons byte bytes =>
    obtain ⟨more, hRun⟩ := List.head?_eq_some_iff.mp h
    rw [decode, run, step] at hRun
    rcases start_cases byte with ⟨c, hStart, hChar⟩ | ⟨p, hStart, hContinues⟩
    · rw [hStart] at hRun
      obtain rfl : c = '\uFEFF' := (List.cons.inj hRun).1
      exact absurd hChar (by decide)
    · rw [hStart, List.nil_append] at hRun
      obtain ⟨hReads, hTails⟩ := reads_of_run hContinues (by decide) (by decide) hRun
      obtain ⟨rfl, hMissing⟩ := start_of_reads_mark hStart hReads
      rw [hMissing] at hTails
      exact List.cons_prefix_cons.mpr ⟨rfl, hTails⟩

end Utf8

/-! ### The two sides of a byte -/

/-- A body without a byte-order mark. -/
def Unmarked (bytes : List UInt8) : Prop :=
  ¬Utf8.mark <+: bytes ∧ ∀ order : Utf16.ByteOrder, ¬order.mark <+: bytes

theorem decodeMarked_of_unmarked {bytes : List UInt8} (h : Unmarked bytes) :
    decodeMarked bytes = Utf8.decode bytes := by
  obtain ⟨hUtf8, hUtf16⟩ := h
  unfold decodeMarked
  split
  · exact absurd ⟨_, rfl⟩ hUtf8
  · exact absurd ⟨_, rfl⟩ (hUtf16 .little)
  · exact absurd ⟨_, rfl⟩ (hUtf16 .big)
  · rfl

theorem decode_of_unmarked {bytes : List UInt8} (h : Unmarked bytes) :
    decode bytes = Utf8.decode bytes := by
  rw [decode, decodeMarked_of_unmarked h]
  exact dropMark_eq_self fun hMark => h.1 (Utf8.mark_prefix_of_decode hMark)

theorem dropMark_append_cons {c : Char} (h : c ≠ '\uFEFF') (s t : List Char) :
    dropMark (s ++ c :: t) = dropMark s ++ c :: t := by
  cases s with
  | nil => exact if_neg h
  | cons first s =>
    by_cases hMark : first = '\uFEFF' <;> simp [dropMark, hMark]

theorem prefix_of_prefix_append_cons {α : Type} {mark a b : List α} {x : α} (hx : x ∉ mark)
    (h : mark <+: a ++ x :: b) : mark <+: a := by
  by_cases hLength : mark.length ≤ a.length
  · exact List.prefix_of_prefix_length_le h (List.prefix_append a (x :: b)) hLength
  · have hStart : a ++ [x] <+: mark := by
      have hWhole : a ++ [x] <+: a ++ x :: b := ⟨b, by simp⟩
      refine List.prefix_of_prefix_length_le hWhole h ?_
      simp only [List.length_append, List.length_singleton]
      omega
    exact absurd (hStart.subset (by simp)) hx

/-- A byte of ASCII is in no mark, so it makes none. -/
theorem not_prefix_append_cons {mark a b : List UInt8} {byte : UInt8}
    (hMark : ∀ other ∈ mark, 0x80 ≤ other.toNat) (hByte : byte.toNat < 0x80) (h : ¬mark <+: a) :
    ¬mark <+: a ++ byte :: b := by
  refine mt (prefix_of_prefix_append_cons fun hMem => ?_) h
  exact Nat.not_le_of_lt hByte (hMark byte hMem)

theorem decodeMarked_append_ascii {a : List UInt8}
    (hA : ∀ order : Utf16.ByteOrder, ¬order.mark <+: a) {byte : UInt8} (hByte : byte.toNat < 0x80)
    (b : List UInt8) : decodeMarked (a ++ byte :: b) =
      decodeMarked a ++ Char.ofNat byte.toNat :: Utf8.decode b := by
  have hNone : ∀ p ∈ (none : Option Utf8.Pending), p.Continues := by simp
  have hRun := fun rest => Utf8.run_append_ascii hNone hByte rest b
  by_cases hMark : Utf8.mark <+: a
  · obtain ⟨rest, rfl⟩ := hMark
    exact hRun rest
  · have hWhole : Unmarked (a ++ byte :: b) := by
      have hMarks : ∀ order : Utf16.ByteOrder, ∀ other ∈ order.mark, 0x80 ≤ other.toNat := by
        intro order
        cases order <;> exact List.all_iff_forall_prop.mp (by decide)
      have hUtf8 : ∀ other ∈ Utf8.mark, 0x80 ≤ other.toNat :=
        List.all_iff_forall_prop.mp (by decide)
      exact ⟨not_prefix_append_cons hUtf8 hByte hMark,
        fun order => not_prefix_append_cons (hMarks order) hByte (hA order)⟩
    rw [decodeMarked_of_unmarked hWhole, decodeMarked_of_unmarked ⟨hMark, hA⟩]
    exact hRun a

/-- A byte of ASCII cuts a body in two: what stands before it and what stands behind it are read on
their own, whatever noise there is on either side.  So if it breaks a line, each line is the same as
without the other side. -/
theorem decode_append_ascii {a b : List UInt8}
    (hA : ∀ order : Utf16.ByteOrder, ¬order.mark <+: a) (hB : Unmarked b) {byte : UInt8}
    (hByte : byte.toNat < 0x80) :
    decode (a ++ byte :: b) = decode a ++ Char.ofNat byte.toNat :: decode b ∧
      (isLineBreak (Char.ofNat byte.toNat) = true →
        (Char.ofNat byte.toNat = '\r' → (decode b).head? ≠ some '\n') →
        lines (decode (a ++ byte :: b)) =
          lines (decode a ++ [Char.ofNat byte.toNat]) ++ lines (decode b)) := by
  have hChar : Char.ofNat byte.toNat ≠ '\uFEFF' := by
    rintro hSame
    have hNumber := toNat_ofNat (n := byte.toNat) (.inl (by omega))
    rw [hSame] at hNumber
    simp at hNumber
    omega
  have hWhole : decode (a ++ byte :: b) = decode a ++ Char.ofNat byte.toNat :: decode b := by
    rw [decode, decodeMarked_append_ascii hA hByte, dropMark_append_cons hChar, ← decode,
      decode_of_unmarked hB]
  refine ⟨hWhole, fun hBreak hPair => ?_⟩
  rw [hWhole, lines_append_break hBreak hPair]

/-- A character that is cut off on both sides of a line feed, and a lone continuation byte. -/
theorem decode_append_ascii_cut :
    (∀ order : Utf16.ByteOrder, ¬order.mark <+: [0x2F, 0xE2, 0x82]) ∧ Unmarked [0xAC, 0xF0, 0x9F] ∧
      (0x0A : UInt8).toNat < 0x80 ∧
      decode [0x2F, 0xE2, 0x82, 0x0A, 0xAC, 0xF0, 0x9F] =
        decode [0x2F, 0xE2, 0x82] ++ '\n' :: decode [0xAC, 0xF0, 0x9F] ∧
      lines (decode [0x2F, 0xE2, 0x82, 0x0A, 0xAC, 0xF0, 0x9F]) =
        lines (decode [0x2F, 0xE2, 0x82] ++ ['\n']) ++ lines (decode [0xAC, 0xF0, 0x9F]) := by
  have hA : ∀ order : Utf16.ByteOrder, ¬order.mark <+: [0x2F, 0xE2, 0x82] := by
    intro order
    cases order <;> decide
  have hB : Unmarked [0xAC, 0xF0, 0x9F] := by
    refine ⟨by decide, fun order => ?_⟩
    cases order <;> decide
  have hByte : (0x0A : UInt8).toNat < 0x80 := by decide
  obtain ⟨hText, hLines⟩ := decode_append_ascii hA hB hByte
  exact ⟨hA, hB, hByte, hText, hLines rfl (by decide)⟩

end RobotsTxt.Text
