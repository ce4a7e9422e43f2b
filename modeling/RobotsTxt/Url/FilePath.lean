import RobotsTxt.Url.Encode
import RobotsTxt.Url.Path
import RobotsTxt.Url.Reference
import RobotsTxt.Url.Scheme

/-! The path of a file.  Its first segment may be a drive, a letter and a colon, for which a bar may
be written.  A tab or line end after the colon ends the drive, so that what follows it in the same
segment is a segment of its own.  Segments are read as they are written, since characters that do
not count elsewhere count there. -/

namespace RobotsTxt.Url.FilePath

/-- The segments of a text as they are written, between its slashes. -/
def split (s : List Char) : List (List Char) := s.splitOnP Scheme.file.isSlash

/-- The text of a written segment. -/
def name (written : List Char) : List Char := encode inPath (Reference.counted written)

def isDriveColon : List Char → Bool
  | [letter, ':'] => letter.isAlpha
  | _ => false

/-- A segment with a colon for the bar of a drive. -/
def withColon : List Char → List Char
  | [letter, mark] => if Path.isDrive [letter, mark] then [letter, ':'] else [letter, mark]
  | segment => segment

/-- Splits a written segment after a drive that a tab or line end keeps from the rest. -/
def splitDrive? (written : List Char) : Option (List Char × List Char) :=
  match Reference.cut ':' written with
  | (front, some (mark :: rest)) =>
    let drive := Reference.counted front ++ [':']
    if isDriveColon drive && Reference.isIgnored mark && !(Reference.counted rest).isEmpty then
      some (drive, Reference.counted rest)
    else none
  | _ => none

/-- The segments that a written segment at the start of the path makes. -/
def ofFirst (written : List Char) : List (List Char) :=
  match splitDrive? written with
  | some (drive, rest) => [drive, encode inPath rest]
  | none => [withColon (name written)]

/-- Reads a written segment below the segments of `above`. -/
def step (above : List (List Char)) (written : List Char) : List (List Char) :=
  if above.isEmpty && !Path.isDots (name written) then ofFirst written
  else Path.step above (name written)

/-- Reads written segments below the segments of `above`.  After dots at the end an empty segment
stands. -/
def resolve (above : List (List Char)) : List (List Char) → List (List Char)
  | [] => above
  | [last] => step above last ++ if Path.isDots (name last) then [[]] else []
  | written :: rest => resolve (step above written) rest

/-- Whether one of the written segments is, where it is read, a drive at the start of the path. -/
def entersDrive (above : List (List Char)) : List (List Char) → Bool
  | [] => false
  | written :: rest =>
    (above.isEmpty && Path.isDrive (name written)) || entersDrive (step above written) rest

/-- A path has no empty segments at its start, but at least one segment. -/
def dropEmpty (segments : List (List Char)) : List (List Char) :=
  match segments.dropWhile List.isEmpty with
  | [] => [[]]
  | kept => kept

/-- The path that a text makes below the segments of `above`. -/
def below (above : List (List Char)) (s : List Char) : Path :=
  .rooted (dropEmpty (resolve above (split s)))

/-- The segments that a text makes in the place of the last one.  A drive is not replaced: alone it
is the place that segments are read below, and after others the first name is added to it. -/
def inPlaceOfLast (segments : List (List Char)) (s : List Char) : List (List Char) :=
  match segments.getLast?, split s with
  | some last, first :: rest =>
    if !isDriveColon last then resolve segments.dropLast (first :: rest)
    else if segments.length = 1 || Path.isHere (name first) then resolve segments (first :: rest)
    else if !Path.isAbove (name first) then resolve (segments.dropLast ++ [last ++ name first]) rest
    else if rest.isEmpty then segments
    else resolve segments (first :: rest)
  | _, written => resolve segments.dropLast written

def startsWithDrive (s : List Char) : Bool :=
  Path.isDrive (Reference.counted (s.takeWhile fun c => !Scheme.file.isSlash c))

end RobotsTxt.Url.FilePath
