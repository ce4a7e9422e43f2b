/-! Sets of characters given as ranges of code points, and regular runs of code points such as the
capitals of a script that alternates capital and small letters. -/

namespace RobotsTxt.Text

/-- Whether `c` has its code point in one of the closed ranges. -/
def inRanges (ranges : List (Nat × Nat)) (c : Char) : Bool :=
  ranges.any fun range => range.1 ≤ c.toNat && c.toNat ≤ range.2

/-- The code points `first`, `first + step`, `first + 2 * step` and so on up to `last`. -/
structure Run where
  first : Nat
  last : Nat
  step : Nat

def Run.has (run : Run) (c : Char) : Bool :=
  run.first ≤ c.toNat && c.toNat ≤ run.last && (c.toNat - run.first) % run.step == 0

end RobotsTxt.Text
