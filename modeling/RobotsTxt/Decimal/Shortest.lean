import RobotsTxt.Decimal.Binary

/-! The shortest decimal text of a double.  A double stands for the interval of numbers that round
to it, ends included if its significand is even.  On the grids of 1, 2 and more significant digits,
the first with a point in the interval gives the text, and of two such points the nearer one. -/

namespace RobotsTxt.Decimal

/-- The interval of a positive double in units of a quarter of its last place: the lower end, the
value and the upper end, with the power of two of the unit. -/
structure Interval where
  low : Nat
  value : Nat
  high : Nat
  exponent : Int
  closed : Bool

/-- Below a power of two the doubles lie twice as close. -/
def Interval.ofBinary (b : Binary) : Interval :=
  let narrow := b.significand = Nat.pow 2 52 && b.exponent ≠ -1074
  { low := 4 * b.significand - if narrow then 1 else 2
    value := 4 * b.significand
    high := 4 * b.significand + 2
    exponent := b.exponent - 2
    closed := b.significand % 2 = 0 }

/-- Factors `a` and `b` such that `x * 2 ^ two = y * 10 ^ ten` exactly if `x * a = y * b`. -/
def factors (two ten : Int) : Nat × Nat :=
  (Nat.pow 2 two.toNat * Nat.pow 10 (-ten).toNat, Nat.pow 2 (-two).toNat * Nat.pow 10 ten.toNat)

/-- Whether the grid point `n * 10 ^ ten` lies in the interval. -/
def Interval.has (i : Interval) (ten : Int) (n : Nat) : Bool :=
  let (a, b) := factors i.exponent ten
  if i.closed then i.low * a ≤ n * b && n * b ≤ i.high * a
  else i.low * a < n * b && n * b < i.high * a

/-- The nearest point of the grid of multiples of `10 ^ ten` that lies in the interval.  A tie goes
to the greater. -/
def Interval.point? (i : Interval) (ten : Int) : Option Nat :=
  let (a, b) := factors i.exponent ten
  let below := i.value * a / b
  match i.has ten below, i.has ten (below + 1) with
  | true, true => some (if 2 * i.value * a < (2 * below + 1) * b then below else below + 1)
  | true, false => some below
  | false, true => some (below + 1)
  | false, false => none

/-- The power of ten just above the value. -/
def Interval.magnitude (i : Interval) : Int :=
  let (a, b) := factors i.exponent (-324)
  ((Nat.toDigits 10 (i.value * a / b)).length : Int) - 324

/-- The first grid with a point in the interval, and that point. -/
def Interval.shortest (i : Interval) : Nat × Int :=
  let grids := (List.range 17).map fun (n : Nat) => i.magnitude - 1 - (n : Int)
  (grids.findSome? fun ten => (i.point? ten).map (·, ten)).getD (0, 0)

/-- `n * 10 ^ ten` without an exponent, and without a point if it is whole. -/
def positional (n : Nat) (ten : Int) : List Char :=
  match ten with
  | .ofNat e => Nat.toDigits 10 (n * Nat.pow 10 e)
  | .negSucc e =>
    let fraction := Nat.toDigits 10 (n % Nat.pow 10 (e + 1))
    let padded := List.replicate (e + 1 - fraction.length) '0' ++ fraction
    let kept := (padded.reverse.dropWhile (· = '0')).reverse
    Nat.toDigits 10 (n / Nat.pow 10 (e + 1)) ++ if kept.isEmpty then [] else '.' :: kept

/-- The shortest text of a finite double, with a minus sign also for negative zero. -/
def shortest (x : Float) : String :=
  let b := Binary.ofFloat x
  let digits :=
    if b.significand = 0 then ['0']
    else
      let (n, ten) := (Interval.ofBinary b).shortest
      positional n ten
  String.ofList (if b.negative then '-' :: digits else digits)

end RobotsTxt.Decimal
