import RobotsTxt.Url.Basic

/-! Reading the authority of a URL: credentials before the last at sign, a host and a port. -/

namespace RobotsTxt.Url

/-- Splits an authority at its last at sign into credentials and the rest. -/
def splitCredentials (s : List Char) : Option (List Char) × List Char :=
  match s.reverse.span (· ≠ '@') with
  | (rest, _ :: credentials) => (some credentials.reverse, rest.reverse)
  | (_, []) => (none, s)

/-- Splits a host from the colon of a port.  A colon in brackets belongs to the host. -/
def splitHost : Bool → List Char → List Char × List Char
  | _, [] => ([], [])
  | inBrackets, c :: rest =>
    if c = ':' && !inBrackets then ([], c :: rest)
    else
      let (host, after) := splitHost (c = '[' || (inBrackets && c ≠ ']')) rest
      (c :: host, after)

/-- Reads a port, without the one that goes without saying, and what follows it.  In a scheme that
is not special a backslash ends the port and starts the path. -/
def port? (scheme : Scheme) (s : List Char) : Option (Option Nat × List Char) :=
  let (digits, rest) := s.span Char.isDigit
  let port := (Text.natInBase? 10 digits).getD 0
  if 0xFFFF < port then none
  else if rest.isEmpty || (!scheme.isSpecial && rest.head? = some '\\') then
    some (if digits.isEmpty || scheme.defaultPort? = some port then none else some port, rest)
  else none

variable [Domains]

def host? (scheme : Scheme) (s : List Char) : Option Host :=
  if scheme.isSpecial then Host.ofText? s else Host.ofOtherText? s

/-- Reads a host, which must not be empty if `needed`, and a port.  What is left starts the path. -/
def hostAndPort? (scheme : Scheme) (needed : Bool) (s : List Char) :
    Option (Option Host × Option Nat × List Char) :=
  match splitHost false s with
  | ([], []) => if needed then none else some (none, none, [])
  | ([], _) => none
  | (host, []) => (host? scheme host).map fun h => (some h, none, [])
  | (host, _ :: port) => do
    let h ← host? scheme host
    let (p, left) ← port? scheme port
    some (some h, p, left)

/-- Reads the text of an authority, and what of it starts the path.  Credentials without characters
need a host, unless nothing follows. -/
def authority? (scheme : Scheme) (s : List Char) (atEnd : Bool) :
    Option (Authority × List Char) := do
  let (credentials, rest) := splitCredentials s
  guard (credentials ≠ some [] || !rest.isEmpty || atEnd)
  let (user, password) := Reference.cut ':' (credentials.getD [])
  let user := encode inCredentials user
  let password := encode inCredentials (password.getD [])
  let needed := scheme.isSpecial || !user.isEmpty || !password.isEmpty
  let (host, port, left) ← hostAndPort? scheme needed rest
  some (⟨user, password, host, port⟩, left)

end RobotsTxt.Url
