import RobotsTxt.Agent.Mode
import RobotsTxt.Text.Alphanumeric
import RobotsTxt.Text.Words

/-! How the names of a crawler are compared with the agents that a group declares. -/

namespace RobotsTxt.Agent

/-- Decides whether declared agents, the second list, address a crawler with the names of the first.
Both are in small letters, and the wildcard is not among the declared agents. -/
abbrev Matcher := List String → List String → Mode → Bool

/-- Whether `c` may stand in a product token: a small letter of ASCII, a digit, `-` or `_`. -/
def isTokenChar (c : Char) : Bool := c.isLower || c.isDigit || c = '-' || c = '_'

/-- The product token that a name starts with. -/
def productToken (name : List Char) : List Char := name.takeWhile isTokenChar

def matchesExactly (name agent : List Char) : Bool := name == agent || name == productToken agent

/-- Whether a neighbour of a word keeps it from standing alone. -/
def adjoins (neighbour : Option Char) : Bool := neighbour.any Text.isAlphanumeric

/-- Whether one of the occurrences of a word has no letter or number next to it.  Occurrences are
counted from the left and do not overlap: of the text that follows `before`, the first `skip`
characters belong to the last one. -/
def standsAlone (word : List Char) : Option Char → Nat → List Char → Bool
  | _, _, [] => false
  | _, skip + 1, c :: rest => standsAlone word (some c) skip rest
  | before, 0, c :: rest =>
    match word.isPrefixOf? (c :: rest) with
    | some after =>
      (!adjoins before && !adjoins after.head?) || standsAlone word (some c) (word.length - 1) rest
    | none => standsAlone word (some c) 0 rest

/-- The words of a declared agent, between blanks and commas.  The wildcard is not one of them. -/
def agentWords (agent : List Char) : List (List Char) :=
  (Text.wordsBy (fun c => Text.isBlank c || c = ',') agent).filter (· ≠ ['*'])

/-- Whether a name or its product token is a word of the declared agent, or contains one that stands
alone. -/
def matchesWord (name agent : List Char) : Bool :=
  (agentWords agent).any fun word =>
    name == word || productToken name == word || standsAlone word none 0 name

def meets (mode : Mode) (name agent : List Char) : Bool :=
  match mode with
  | .exact => matchesExactly name agent
  | .byWord => matchesExactly name agent || matchesWord name agent

/-- The standard matcher: some name meets some declared agent. -/
def byProductToken : Matcher := fun names declared mode =>
  names.any fun name => declared.any fun agent => meets mode name.toList agent.toList

end RobotsTxt.Agent
