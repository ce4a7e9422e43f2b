/-! What a rule says of the paths that it matches. -/

namespace RobotsTxt

/-- Whether a path may be fetched. -/
inductive Verdict where
  | allow
  | disallow
deriving DecidableEq, Repr

/-- The field name of rules with this verdict. -/
def Verdict.label : Verdict → String
  | .allow => "Allow"
  | .disallow => "Disallow"

end RobotsTxt
