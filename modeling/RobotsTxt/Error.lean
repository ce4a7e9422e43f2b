/-! What a caller can do wrong.  No content of a robots.txt is an error. -/

namespace RobotsTxt

/-- Why a request is refused. -/
inductive Error where
  | emptyAgentName
  | wildcardAgentName
  | uppercaseAgentName (name : String)
  | illegalAgentName (name : String) (char : Char)
  | notAFailedFetch (status : Nat)
deriving DecidableEq, Repr

namespace Error

/-- A character between quotes, a control character by its escape. -/
def quoted (c : Char) : String :=
  let shown :=
    if c = '\t' then "\\t"
    else if c = '\n' then "\\n"
    else if c = '\r' then "\\r"
    else if c = '\x00' then "\\0"
    else if c = '#' then "#"
    else "\\u\x7b" ++ String.ofList (Nat.toDigits 16 c.toNat) ++ "\x7d"
  "'" ++ shown ++ "'"

def message : Error → String
  | emptyAgentName => "agent name must not be empty"
  | wildcardAgentName => "wildcard '*' is not a valid agent name"
  | uppercaseAgentName name =>
    "agent name '" ++ name ++ "' must be lower-case for exact matching"
  | illegalAgentName name c =>
    "agent name '" ++ name ++ "' contains illegal character " ++ quoted c
  | notAFailedFetch status =>
    "status " ++ toString status ++ " does not describe a failed robots.txt fetch"

end Error

end RobotsTxt
