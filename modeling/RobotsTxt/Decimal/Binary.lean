/-! Doubles as binary fractions, and their rounding to whole numbers. -/

namespace RobotsTxt.Decimal

/-- The number `significand * 2 ^ exponent`, with a sign. -/
structure Binary where
  negative : Bool
  significand : Nat
  exponent : Int
deriving DecidableEq, Repr

/-- The value of a finite double.  An infinite one has the value that the pattern would have if
exponents went on. -/
def Binary.ofFloat (x : Float) : Binary :=
  let bits := x.toBits.toNat
  let field : Nat := bits / Nat.pow 2 52 % Nat.pow 2 11
  let fraction : Nat := bits % Nat.pow 2 52
  { negative := decide (bits / Nat.pow 2 63 = 1)
    significand := if field = 0 then fraction else fraction + Nat.pow 2 52
    exponent := if field = 0 then -1074 else (field : Int) - 1075 }

/-- The size of the value rounded to a whole number, a half away from zero. -/
def Binary.round (b : Binary) : Nat :=
  match b.exponent with
  | .ofNat e => b.significand * Nat.pow 2 e
  | .negSucc e => (b.significand + Nat.pow 2 e) / Nat.pow 2 (e + 1)

end RobotsTxt.Decimal
