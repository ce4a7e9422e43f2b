import RobotsTxt.Text.Utf8

/-! Reading UTF-16 that may hold mistakes: each surrogate without its partner, and a last byte
without its partner, becomes one U+FFFD. -/

namespace RobotsTxt.Text.Utf16

open Utf8 (replacement)

inductive ByteOrder where
  | little
  | big
deriving DecidableEq, Repr

/-- The unit that two bytes make. -/
def ByteOrder.unit : ByteOrder → UInt8 → UInt8 → Nat
  | .little, first, second => second.toNat * 0x100 + first.toNat
  | .big, first, second => first.toNat * 0x100 + second.toNat

/-- The units of the whole pairs of bytes. -/
def units (order : ByteOrder) : List UInt8 → List Nat
  | first :: second :: rest => order.unit first second :: units order rest
  | _ => []

def isLead (unit : Nat) : Bool := 0xD800 ≤ unit && unit < 0xDC00

def isTrail (unit : Nat) : Bool := 0xDC00 ≤ unit && unit < 0xE000

def pair (lead trail : Nat) : Char :=
  Char.ofNat (0x10000 + (lead - 0xD800) * 0x400 + (trail - 0xDC00))

def single (unit : Nat) : Char :=
  if isLead unit || isTrail unit then replacement else Char.ofNat unit

def chars : List Nat → List Char
  | [] => []
  | [unit] => [single unit]
  | unit :: next :: rest =>
    if isLead unit && isTrail next then pair unit next :: chars rest
    else single unit :: chars (next :: rest)

def decode (order : ByteOrder) (bytes : List UInt8) : List Char :=
  chars (units order bytes) ++ if bytes.length % 2 = 1 then [replacement] else []

end RobotsTxt.Text.Utf16
