import RobotsTxt.Percent.Escape

/-! Which characters are escaped in which part of a URL.  Controls and all that is not ASCII are
escaped everywhere. -/

namespace RobotsTxt.Url

def isUnsafe (c : Char) : Bool := c.toNat < 0x20 || 0x7E < c.toNat

def inFragment (c : Char) : Bool := isUnsafe c || c ∈ [' ', '"', '<', '>', '\x60']

def inQuery (c : Char) : Bool := isUnsafe c || c ∈ [' ', '"', '#', '<', '>']

def inSpecialQuery (c : Char) : Bool := inQuery c || c = '\''

def inPath (c : Char) : Bool := inFragment c || c ∈ ['#', '?', '\x7b', '\x7d']

def inCredentials (c : Char) : Bool :=
  inPath c || c ∈ ['/', ':', ';', '=', '@', '[', '\\', ']', '^', '|']

/-- The text with the characters of a set escaped. -/
def encode (set : Char → Bool) (s : List Char) : List Char :=
  s.flatMap fun c => if set c then Percent.escapeChar c else [c]

end RobotsTxt.Url
