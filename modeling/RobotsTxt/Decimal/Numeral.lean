/-! Decimal numerals: an optional sign, digits with at most one point among or around them, and an
optional exponent of ten.  The value of a numeral is the double nearest to what it denotes. -/

namespace RobotsTxt.Decimal

/-- A numeral: its sign, its digits without the point, and the power of ten of the last of them. -/
structure Numeral where
  negative : Bool
  digits : List Char
  exponent : Int
deriving DecidableEq, Repr

def natOfDigits (digits : List Char) : Nat :=
  digits.foldl (fun n d => 10 * n + (d.toNat - '0'.toNat)) 0

/-- Splits an optional sign from a text, and tells whether it was a minus sign. -/
def splitSign : List Char → Bool × List Char
  | '-' :: rest => (true, rest)
  | '+' :: rest => (false, rest)
  | s => (false, s)

/-- Reads the power of ten at the end of a numeral. -/
def exponent? : List Char → Option Int
  | [] => some 0
  | e :: rest =>
    let (negative, digits) := splitSign rest
    if (e = 'e' || e = 'E') && !digits.isEmpty && digits.all Char.isDigit then
      some (if negative then -(natOfDigits digits : Int) else natOfDigits digits)
    else none

/-- Splits the digits after a point, if the text starts with a point. -/
def splitFraction : List Char → List Char × List Char
  | '.' :: rest => rest.span Char.isDigit
  | s => ([], s)

def Numeral.ofText? (s : List Char) : Option Numeral :=
  let (negative, s) := splitSign s
  let (whole, s) := s.span Char.isDigit
  let (fraction, s) := splitFraction s
  if whole.isEmpty && fraction.isEmpty then none
  else (exponent? s).map fun exponent =>
    ⟨negative, whole ++ fraction, exponent - (fraction.length : Int)⟩

/-- The double nearest to `n * 10 ^ exponent`, where `n` has at most `size` digits.  Beyond the
first two bounds every nonzero value is infinite, or zero. -/
def nearest (n size : Nat) (exponent : Int) : Float :=
  if n = 0 then 0
  else if exponent > 400 then 1 / 0
  else if exponent < -(400 + size : Int) then 0
  else Float.ofScientific n (exponent < 0) exponent.natAbs

def Numeral.toFloat (n : Numeral) : Float :=
  let magnitude := nearest (natOfDigits n.digits) n.digits.length n.exponent
  if n.negative then -magnitude else magnitude

end RobotsTxt.Decimal
