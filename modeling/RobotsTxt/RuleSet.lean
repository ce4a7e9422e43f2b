import RobotsTxt.Group

/-! A robots.txt that has been read. -/

namespace RobotsTxt

/-- The groups in file order, the sitemaps without repeats, and the number of lines that were of no
use or had to be repaired. -/
structure RuleSet where
  groups : List Group
  sitemaps : List String
  warnings : Nat
deriving BEq, Repr

namespace RuleSet

def empty : RuleSet := ⟨[], [], 0⟩

def isEmpty (s : RuleSet) : Bool := s.groups.isEmpty && s.sitemaps.isEmpty

def text (s : RuleSet) : String :=
  toString s.groups.length ++ " groups, " ++ toString s.sitemaps.length ++ " sitemaps, " ++
    toString s.warnings ++ " warnings"

end RuleSet

end RobotsTxt
