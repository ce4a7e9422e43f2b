/-! Reading UTF-8 that may hold mistakes.  Bytes are read one at a time; the longest part of a
sequence that could still have become a character is replaced by one U+FFFD as soon as a byte
comes that cannot continue it, and that byte is then read afresh. -/

namespace RobotsTxt.Text.Utf8

/-- The character that stands for bytes that are no character. -/
def replacement : Char := '\uFFFD'

/-- The start of a sequence: how many continuation bytes are missing, between which bounds the next
one must lie, and the bits read so far. -/
structure Pending where
  missing : Nat
  low : Nat
  high : Nat
  bits : Nat
deriving DecidableEq, Repr

/-- Reads a byte where a character starts. -/
def start (byte : UInt8) : List Char × Option Pending :=
  let n := byte.toNat
  if n < 0x80 then ([Char.ofNat n], none)
  else if n < 0xC2 then ([replacement], none)
  else if n < 0xE0 then ([], some ⟨1, 0x80, 0xBF, n % 0x20⟩)
  else if n = 0xE0 then ([], some ⟨2, 0xA0, 0xBF, 0⟩)
  else if n = 0xED then ([], some ⟨2, 0x80, 0x9F, 0xD⟩)
  else if n < 0xF0 then ([], some ⟨2, 0x80, 0xBF, n % 0x10⟩)
  else if n = 0xF0 then ([], some ⟨3, 0x90, 0xBF, 0⟩)
  else if n < 0xF4 then ([], some ⟨3, 0x80, 0xBF, n % 0x08⟩)
  else if n = 0xF4 then ([], some ⟨3, 0x80, 0x8F, 4⟩)
  else ([replacement], none)

/-- Reads a byte after the start of a sequence. -/
def Pending.step (p : Pending) (byte : UInt8) : List Char × Option Pending :=
  let n := byte.toNat
  if p.low ≤ n ∧ n ≤ p.high then
    let bits := p.bits * 0x40 + n % 0x40
    if p.missing ≤ 1 then ([Char.ofNat bits], none)
    else ([], some ⟨p.missing - 1, 0x80, 0xBF, bits⟩)
  else
    let next := start byte
    (replacement :: next.1, next.2)

def step : Option Pending → UInt8 → List Char × Option Pending
  | none, byte => start byte
  | some p, byte => p.step byte

/-- The characters of the bytes that follow a start of a sequence, if there is one. -/
def run : Option Pending → List UInt8 → List Char
  | none, [] => []
  | some _, [] => [replacement]
  | state, byte :: rest => (step state byte).1 ++ run (step state byte).2 rest

def decode (bytes : List UInt8) : List Char := run none bytes

end RobotsTxt.Text.Utf8
