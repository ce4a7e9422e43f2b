import RobotsTxt.Url.Basic
import RobotsTxt.Url.FilePath

/-! URLs of files.  Two slashes start a host, which may be empty; the local host is the empty one,
and a drive at the start of the path takes the place of the host. -/

namespace RobotsTxt.Url.File

def afterSlash? (s : List Char) : Option (List Char) :=
  match s.dropWhile Reference.isIgnored with
  | c :: rest => if Scheme.file.isSlash c then some rest else none
  | [] => none

/-- The URL of a file with the query and fragment of a reference. -/
def ofPath (r : Reference) (host : Option Host) (path : Path) : Url :=
  withParts .file r (some ⟨[], [], host, none⟩) path

variable [Domains]

/-- Reads a host.  The empty text and the local host are no host. -/
def host? (s : List Char) : Option (Option Host) :=
  if s.isEmpty then some none
  else (Host.ofText? s).map fun host => if host = .name "localhost".toList then none else some host

/-- Reads what follows two slashes.  After a host the path starts behind a slash; without one that
slash is itself read as part of the path, so that a drive behind it is not the first segment. -/
def ofHost? (r : Reference) (s : List Char) : Option Url :=
  let (front, rest) := s.span fun c => !Scheme.file.isSlash c
  if FilePath.startsWithDrive s then some (ofPath r none (FilePath.below [] s))
  else (host? (Reference.counted front)).map fun
    | none => ofPath r none (FilePath.below [] rest)
    | some host =>
      let behind := rest.drop 1
      let kept := if FilePath.entersDrive [] (FilePath.split behind) then none else some host
      ofPath r kept (FilePath.below [] behind)

/-- Reads the URL of a file: two slashes start a host, and one or none the path. -/
def ofReference? (r : Reference) : Option Url :=
  match afterSlash? r.raw with
  | none => some (ofPath r none (FilePath.below [] r.raw))
  | some rest =>
    match afterSlash? rest with
    | none => some (ofPath r none (FilePath.below [] rest))
    | some rest => ofHost? r rest

/-- Beside a file: two slashes start a host, one the path from the root or from the drive, and
anything else takes the place of the last segment.  A reference that starts with a drive has no
host. -/
def relative? (base : Url) (segments : List (List Char)) (r : Reference) : Option Url :=
  match afterSlash? r.raw with
  | none =>
    if FilePath.startsWithDrive r.raw then some (ofPath r none (FilePath.below [] r.raw))
    else
      let names := FilePath.inPlaceOfLast segments r.raw
      some (ofPath r base.host (.rooted (FilePath.dropEmpty names)))
  | some rest =>
    match afterSlash? rest with
    | none =>
      let drive := segments.head?.toList.filter FilePath.isDriveColon
      if FilePath.startsWithDrive rest then some (ofPath r none (FilePath.below [] rest))
      else some (ofPath r (if drive.isEmpty then base.host else none) (FilePath.below drive rest))
    | some rest => ofHost? r rest

end RobotsTxt.Url.File
