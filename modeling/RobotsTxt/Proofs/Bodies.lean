import RobotsTxt.Proofs.Utf8
import RobotsTxt.RuleSet.Parse

/-! The bodies that say the same text.  A text may be written in UTF-8, with a byte-order mark or
without one, or in either order of UTF-16, which needs its mark.  All of them are read as the text,
so they make the same rule set. -/

namespace RobotsTxt

namespace Text

namespace Utf16

/-! ### Units -/

/-- The units of a character.  A number that does not fit into one is written as a lead surrogate
and a trail surrogate. -/
def unitsOf (c : Char) : List Nat :=
  if c.toNat < 0x10000 then [c.toNat]
  else [0xD800 + (c.toNat - 0x10000) / 0x400, 0xDC00 + (c.toNat - 0x10000) % 0x400]

theorem lt_of_mem_unitsOf {c : Char} {unit : Nat} (h : unit ∈ unitsOf c) : unit < 0x10000 := by
  have hValid : c.toNat < 0xD800 ∨ 0xDFFF < c.toNat ∧ c.toNat < 0x110000 := c.valid
  unfold unitsOf at h
  split at h
  · rename_i hSmall
    rwa [List.mem_singleton.mp h]
  · simp only [List.mem_cons, List.not_mem_nil, or_false] at h
    omega

theorem chars_cons {unit : Nat} (h : isLead unit = false) (rest : List Nat) :
    chars (unit :: rest) = single unit :: chars rest := by
  cases rest with
  | nil => rfl
  | cons next rest => simp [chars, h]

theorem chars_pair {lead trail : Nat} (hLead : isLead lead = true) (hTrail : isTrail trail = true)
    (rest : List Nat) : chars (lead :: trail :: rest) = pair lead trail :: chars rest := by
  simp [chars, hLead, hTrail]

/-- The units of a character are read as the character, since no character is a surrogate. -/
theorem chars_unitsOf (c : Char) (rest : List Nat) :
    chars (unitsOf c ++ rest) = c :: chars rest := by
  have hValid : c.toNat < 0xD800 ∨ 0xDFFF < c.toNat ∧ c.toNat < 0x110000 := c.valid
  unfold unitsOf
  split
  · have hLead : isLead c.toNat = false := by
      simp only [isLead, Bool.and_eq_false_iff, decide_eq_false_iff_not]
      omega
    have hTrail : isTrail c.toNat = false := by
      simp only [isTrail, Bool.and_eq_false_iff, decide_eq_false_iff_not]
      omega
    rw [List.singleton_append, chars_cons hLead]
    simp [single, hLead, hTrail]
  · have hLead : isLead (0xD800 + (c.toNat - 0x10000) / 0x400) = true := by
      simp only [isLead, Bool.and_eq_true, decide_eq_true_eq]
      omega
    have hTrail : isTrail (0xDC00 + (c.toNat - 0x10000) % 0x400) = true := by
      simp only [isTrail, Bool.and_eq_true, decide_eq_true_eq]
      omega
    rw [List.cons_append, List.singleton_append, chars_pair hLead hTrail, pair,
      show 0x10000 + (0xD800 + (c.toNat - 0x10000) / 0x400 - 0xD800) * 0x400 +
        (0xDC00 + (c.toNat - 0x10000) % 0x400 - 0xDC00) = c.toNat by omega, Char.ofNat_toNat]

theorem chars_flatMap (s : List Char) : chars (s.flatMap unitsOf) = s := by
  induction s with
  | nil => rfl
  | cons c s ih => rw [List.flatMap_cons, chars_unitsOf, ih]

/-! ### Bytes -/

/-- The two bytes of a unit. -/
def ByteOrder.bytes : ByteOrder → Nat → List UInt8
  | .little, unit => [UInt8.ofNat (unit % 0x100), UInt8.ofNat (unit / 0x100)]
  | .big, unit => [UInt8.ofNat (unit / 0x100), UInt8.ofNat (unit % 0x100)]

/-- The bytes of a text. -/
def encode (order : ByteOrder) (s : List Char) : List UInt8 :=
  (s.flatMap unitsOf).flatMap order.bytes

theorem units_bytes (order : ByteOrder) {unit : Nat} (h : unit < 0x10000) (rest : List UInt8) :
    units order (order.bytes unit ++ rest) = unit :: units order rest := by
  have hLow : (UInt8.ofNat (unit % 0x100)).toNat = unit % 0x100 :=
    UInt8.toNat_ofNat_of_lt' (show unit % 0x100 < 0x100 by omega)
  have hHigh : (UInt8.ofNat (unit / 0x100)).toNat = unit / 0x100 :=
    UInt8.toNat_ofNat_of_lt' (show unit / 0x100 < 0x100 by omega)
  cases order with
  | little | big =>
    simp only [ByteOrder.bytes, List.cons_append, List.nil_append, units, ByteOrder.unit, hLow, hHigh]
    rw [show unit / 0x100 * 0x100 + unit % 0x100 = unit by omega]

theorem units_flatMap (order : ByteOrder) {all : List Nat} (h : ∀ unit ∈ all, unit < 0x10000) :
    units order (all.flatMap order.bytes) = all := by
  induction all with
  | nil => rfl
  | cons unit all ih =>
    obtain ⟨hUnit, hAll⟩ := List.forall_mem_cons.mp h
    rw [List.flatMap_cons, units_bytes order hUnit, ih hAll]

theorem length_bytes (order : ByteOrder) (unit : Nat) : (order.bytes unit).length = 2 := by
  cases order <;> rfl

theorem length_flatMap_bytes (order : ByteOrder) (all : List Nat) :
    (all.flatMap order.bytes).length % 2 = 0 := by
  induction all with
  | nil => rfl
  | cons unit all ih =>
    rw [List.flatMap_cons, List.length_append, length_bytes]
    omega

theorem decode_encode (order : ByteOrder) (s : List Char) : decode order (encode order s) = s := by
  have hUnits : ∀ unit ∈ s.flatMap unitsOf, unit < 0x10000 := by
    intro unit hUnit
    obtain ⟨c, -, hMem⟩ := List.mem_flatMap.mp hUnit
    exact lt_of_mem_unitsOf hMem
  rw [decode, encode, units_flatMap order hUnits, chars_flatMap, if_neg, List.append_nil]
  rw [length_flatMap_bytes]
  decide

end Utf16

/-! ### Marks -/

/-- The byte-order mark in UTF-8. -/
def Utf8.mark : List UInt8 := [0xEF, 0xBB, 0xBF]

/-- The byte-order mark in UTF-16. -/
def Utf16.ByteOrder.mark : Utf16.ByteOrder → List UInt8
  | .little => [0xFF, 0xFE]
  | .big => [0xFE, 0xFF]

/-- A way to write a text as a body. -/
inductive Form where
  | utf8
  | markedUtf8
  | utf16 (order : Utf16.ByteOrder)
deriving DecidableEq, Repr

def Form.body : Form → List Char → List UInt8
  | .utf8, s => Utf8.encode s
  | .markedUtf8, s => Utf8.mark ++ Utf8.encode s
  | .utf16 order, s => order.mark ++ Utf16.encode order s

theorem decode_body {s : List Char} (h : s.head? ≠ some '\uFEFF') (form : Form) :
    decode (form.body s) = s := by
  cases form with
  | utf8 => exact decode_encode h
  | markedUtf8 =>
    change dropMark (Utf8.decode (Utf8.encode s)) = s
    rw [Utf8.decode_encode, dropMark_eq_self h]
  | utf16 order =>
    have hMarked : decodeMarked (order.mark ++ Utf16.encode order s) =
        Utf16.decode order (Utf16.encode order s) := by cases order <;> rfl
    rw [Form.body, decode, hMarked, Utf16.decode_encode, dropMark_eq_self h]

end Text

namespace RuleSet

open Text (Form)

/-- Every form of a text is read as the text, so a file makes the same rule set in each of them. -/
theorem parse_body [Domains] {s : List Char} (h : s.head? ≠ some '\uFEFF') (form : Form) :
    Text.decode (form.body s) = s ∧ ∀ robotsUrl contentType,
      parse robotsUrl (form.body s) contentType =
        parse robotsUrl (Text.Utf8.encode s) contentType := by
  have hForm : Text.decode (form.body s) = s := Text.decode_body h form
  have hPlain : Text.decode (Text.Utf8.encode s) = s := Text.decode_encode h
  refine ⟨hForm, fun robotsUrl contentType => ?_⟩
  rw [parse, parse, hForm, hPlain]

/-- Characters with one to four bytes of UTF-8, the last of them a pair of surrogates in UTF-16, and
a mark that is not at the start. -/
def mixedText : List Char := "User-agent: é€😀\uFEFF\n".toList

theorem parse_body_mixed : mixedText.head? ≠ some '\uFEFF' ∧
    Text.decode (Form.body (.utf16 .big) mixedText) = mixedText ∧ ∀ robotsUrl contentType,
      parse robotsUrl (Form.body (.utf16 .big) mixedText) contentType =
        parse robotsUrl (Text.Utf8.encode mixedText) contentType := by
  have hStart : mixedText.head? ≠ some '\uFEFF' := by decide +kernel
  exact ⟨hStart, parse_body hStart (.utf16 .big)⟩

end RuleSet

end RobotsTxt
