import RobotsTxt.Pattern
import RobotsTxt.Verdict

/-! Rules: a path pattern and what it says of the paths that match. -/

namespace RobotsTxt

/-- An `Allow` or `Disallow` line. -/
structure Rule where
  pattern : Pattern
  verdict : Verdict
deriving DecidableEq, Repr

namespace Rule

/-- The rule of a line.  A `Disallow` without a value allows everything. -/
def ofValue (verdict : Verdict) (value : String) : Rule :=
  let pattern := Pattern.ofText value
  ⟨pattern, if pattern.isEmpty then .allow else verdict⟩

def allows (r : Rule) : Bool := r.verdict = .allow

def text (r : Rule) : String := r.verdict.label ++ ": " ++ r.pattern.source

/-- Whether a rule stands before another in the order of precedence, or may: the more specific one
does, and of two that are equally specific one that allows. -/
def precedes (a b : Rule) : Bool :=
  b.pattern.specificity < a.pattern.specificity ||
    (a.pattern.specificity = b.pattern.specificity && (a.allows || !b.allows))

/-- The order of precedence: rules that are equal in it keep their places. -/
def inPrecedence (rules : List Rule) : List Rule := rules.mergeSort precedes

end Rule

end RobotsTxt
