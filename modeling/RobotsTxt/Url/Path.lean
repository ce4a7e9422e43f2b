/-! The path of a URL: a text without segments, or segments each after a slash.  Segments that are
dots are resolved while a path is read, and a segment that names a drive is never left again, in
whatever scheme. -/

namespace RobotsTxt.Url

/-- A path without or with segments. -/
inductive Path where
  | rootless (text : List Char)
  | rooted (segments : List (List Char))
deriving DecidableEq, Repr

namespace Path

def text : Path → List Char
  | rootless text => text
  | rooted segments => segments.flatMap ('/' :: ·)

/-! ### Dot segments -/

/-- A point or its escape. -/
def dropPoint? : List Char → Option (List Char)
  | '.' :: rest => some rest
  | '%' :: '2' :: e :: rest => if e = 'e' || e = 'E' then some rest else none
  | _ => none

/-- Whether a segment stands for the place where it is. -/
def isHere (segment : List Char) : Bool := dropPoint? segment = some []

/-- Whether a segment stands for the place above. -/
def isAbove (segment : List Char) : Bool := (dropPoint? segment).bind dropPoint? = some []

/-- Whether a segment is a letter and a colon or bar. -/
def isDrive : List Char → Bool
  | [letter, mark] => letter.isAlpha && (mark = ':' || mark = '|')
  | _ => false

/-- Whether a segment is a letter and a colon or bar, up to a backslash if it has one. -/
def startsWithDrive (segment : List Char) : Bool := isDrive (segment.takeWhile (· ≠ '\\'))

def climb (segments : List (List Char)) : List (List Char) :=
  if segments.getLast?.any startsWithDrive then segments else segments.dropLast

def isDots (segment : List Char) : Bool := isHere segment || isAbove segment

/-- Reads a segment below those of `above`. -/
def step (above : List (List Char)) (segment : List Char) : List (List Char) :=
  if isAbove segment then climb above
  else if isHere segment then above
  else above ++ [segment]

/-- Reads segments below those of `above`.  After dots at the end an empty segment stands. -/
def resolve (above : List (List Char)) : List (List Char) → List (List Char)
  | [] => above
  | [last] => step above last ++ if isDots last then [[]] else []
  | segment :: rest => resolve (step above segment) rest

end Path

end RobotsTxt.Url
