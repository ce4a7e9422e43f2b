import RobotsTxt.Agent.Mode
import RobotsTxt.Error
import RobotsTxt.Text.Blank
import RobotsTxt.Text.Lowercase
import RobotsTxt.Text.Uppercase

/-! The names of a crawler.  Blanks around a name do not count; a name must not be empty or the
wildcard, and must not hold a control character or a number sign. -/

namespace RobotsTxt.Agent

def isIllegal (c : Char) : Bool := c.toNat < 0x20 || (0x7F ≤ c.toNat && c.toNat < 0xA0) || c = '#'

/-- The trimmed name, if it is valid. -/
def check (raw : String) : Except Error (List Char) :=
  let name := Text.trim raw.toList
  if name.isEmpty then .error .emptyAgentName
  else if name = ['*'] then .error .wildcardAgentName
  else match name.find? isIllegal with
    | some c => .error (.illegalAgentName (String.ofList name) c)
    | none => .ok name

def sanitizeName (raw : String) : Except Error String :=
  (check raw).map fun name => String.ofList (Text.lowercase name)

/-- The names in small letters, without repeats.  The first name that is not valid decides. -/
def sanitize (names : List String) : Except Error (List String) :=
  (names.mapM sanitizeName).map List.eraseDups

/-- A name made ready for matching.  Exact mode refuses capital letters. -/
def prepareName (mode : Mode) (raw : String) : Except Error String :=
  match check raw with
  | .error e => .error e
  | .ok name =>
    if mode = .exact && name.any Text.isUppercase then
      .error (.uppercaseAgentName (String.ofList name))
    else .ok (String.ofList (Text.lowercase name))

/-- The names made ready for matching.  The first name that is not valid decides. -/
def prepare (mode : Mode) (names : List String) : Except Error (List String) :=
  names.mapM (prepareName mode)

end RobotsTxt.Agent
