import RobotsTxt.Percent.Normal
import RobotsTxt.Text.Blank
import RobotsTxt.Text.Search

/-! Path patterns.  A `*` stands for any run of characters, a trailing `$` ties the pattern to the
end of the path, and all else stands for itself up to percent-escapes.  A pattern is kept as the
literals between its stars; it matches by finding the first at the start of the path and each
other at its leftmost place after the one before. -/

namespace RobotsTxt

/-- A path pattern: the trimmed value it was written as, the normal forms of the literals between
its stars, and whether it must reach the end of the path. -/
structure Pattern where
  source : String
  literals : List (List Char)
  anchored : Bool
deriving DecidableEq, Repr

namespace Pattern

/-- Splits a trailing `$` from a trimmed value, and tells whether there was one. -/
def splitAnchor (source : List Char) : List Char × Bool :=
  if source.getLast? = some '$' then (source.dropLast, true) else (source, false)

/-- A pattern body starts at the root of the path unless it starts with a star. -/
def rooted : List Char → List Char
  | [] => []
  | c :: rest => if c = '/' || c = '*' then c :: rest else '/' :: c :: rest

/-- The texts between the stars of a trimmed value.  The empty body has none. -/
def segments (source : List Char) : List (List Char) :=
  match rooted (splitAnchor source).1 with
  | [] => []
  | body => body.splitOn '*'

/-- The pattern that a directive value stands for. -/
def ofText (raw : String) : Pattern :=
  let source := Text.trim raw.toList
  { source := String.ofList source
    literals := (segments source).map Percent.normalize
    anchored := (splitAnchor source).2 }

/-- Whether a directive value has a percent sign that starts no escape within its segment. -/
def malformed (raw : String) : Bool := (segments (Text.trim raw.toList)).any Percent.malformed

/-- The number of characters of the source; a matching pattern of more characters wins. -/
def specificity (p : Pattern) : Nat := p.source.length

/-- The empty pattern matches every path. -/
def isEmpty (p : Pattern) : Bool := p.source.isEmpty

/-- Whether the literals after the first occur in order in the rest of a path, the last of them at
its end if the pattern is anchored. -/
def matchRest (anchored : Bool) : List (List Char) → List Char → Bool
  | [], path => !anchored || path.isEmpty
  | [last], path => if anchored then last.isSuffixOf path else (Text.afterFirst last path).isSome
  | literal :: rest, path =>
    match Text.afterFirst literal path with
    | some after => matchRest anchored rest after
    | none => false

/-- Whether the pattern matches a path in normal form. -/
def matchesNormal (p : Pattern) (path : List Char) : Bool :=
  match p.literals with
  | [] => !p.anchored || path.isEmpty
  | first :: rest =>
    match first.isPrefixOf? path with
    | some after => matchRest p.anchored rest after
    | none => false

def matchesPath (p : Pattern) (path : String) : Bool :=
  p.matchesNormal (Percent.normalize path.toList)

end Pattern

end RobotsTxt
