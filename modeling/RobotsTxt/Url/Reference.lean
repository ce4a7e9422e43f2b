import RobotsTxt.Url.Scheme

/-! References: texts that are URLs, or stand for one beside another.  Controls and spaces around a
reference do not count, and neither do tabs and line ends in it, except that one of them can end a
drive in the path of a file. -/

namespace RobotsTxt.Url

/-- The parts of a reference: its scheme if it has one, what follows that, with the tabs and line
ends in it, the query and the fragment. -/
structure Reference where
  scheme : Option Scheme
  raw : List Char
  query : Option (List Char)
  fragment : Option (List Char)
deriving DecidableEq, Repr

namespace Reference

/-- Whether `c` does not count around a reference. -/
def isOuter (c : Char) : Bool := c.toNat ≤ 0x20

/-- Whether `c` does not count in a reference. -/
def isIgnored (c : Char) : Bool := c = '\t' || c = '\n' || c = '\r'

/-- The characters that count in a reference. -/
def counted (s : List Char) : List Char := s.filter fun c => !isIgnored c

/-- A text without what does not count around it. -/
def trimOuter (s : List Char) : List Char :=
  ((s.dropWhile isOuter).reverse.dropWhile isOuter).reverse

/-- What follows the scheme, up to the query. -/
def body (r : Reference) : List Char := counted r.raw

def cut (mark : Char) (s : List Char) : List Char × Option (List Char) :=
  match s.span (· ≠ mark) with
  | (before, _ :: after) => (before, some after)
  | (before, []) => (before, none)

def isSchemeChar (c : Char) : Bool := c.isAlphanum || c = '+' || c = '-' || c = '.'

def isSchemeName (s : List Char) : Bool := s.head?.any Char.isAlpha && s.all isSchemeChar

/-- Splits a scheme and its colon from a text. -/
def splitScheme (s : List Char) : Option Scheme × List Char :=
  match cut ':' s with
  | (front, some rest) =>
    if isSchemeName (counted front) then
      (some (.ofName ((counted front).map Char.toLower)), rest)
    else (none, s)
  | (_, none) => (none, s)

def ofText (s : List Char) : Reference :=
  let (front, fragment) := cut '#' (trimOuter s)
  let (front, query) := cut '?' front
  let (scheme, raw) := splitScheme front
  ⟨scheme, raw, query.map counted, fragment.map counted⟩

end Reference

end RobotsTxt.Url
