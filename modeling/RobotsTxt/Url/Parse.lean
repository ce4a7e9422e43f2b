import RobotsTxt.Url.Authority
import RobotsTxt.Url.File

/-! Reading URLs that have a scheme.  What follows two slashes names an authority; in the web's
schemes any slashes do, and none as well.  A path has its dots resolved as it is read. -/

namespace RobotsTxt.Url

def segments (scheme : Scheme) (s : List Char) : List (List Char) :=
  (s.splitOnP scheme.isSlash).map (encode inPath)

/-- Reads the path that follows an authority.  In a special scheme it is never empty. -/
def pathAfterAuthority (scheme : Scheme) : List Char → Path
  | [] => .rooted (if scheme.isSpecial then [[]] else [])
  | c :: rest =>
    .rooted (Path.resolve [] (segments scheme (if scheme.isSlash c then rest else c :: rest)))

variable [Domains]

/-- Reads what follows two slashes in the URL of a scheme other than that of files. -/
def withAuthority? (scheme : Scheme) (r : Reference) (s : List Char) : Option Url := do
  let (front, rest) := s.span fun c => !scheme.isSlash c
  let (authority, left) ←
    authority? scheme front (rest.isEmpty && r.query.isNone && r.fragment.isNone)
  some (withParts scheme r (some authority) (pathAfterAuthority scheme (left ++ rest)))

/-- Reads a URL of a scheme that is not special. -/
def other? (scheme : Scheme) (r : Reference) : Option Url :=
  match r.body with
  | '/' :: '/' :: rest => withAuthority? scheme r rest
  | '/' :: rest =>
    some (withParts scheme r none (.rooted (Path.resolve [] (segments scheme rest))))
  | rest => some (withParts scheme r none (.rootless (encode isUnsafe rest)))

def ofReference? (r : Reference) : Option Url :=
  match r.scheme with
  | none => none
  | some .file => File.ofReference? r
  | some (.other name) => other? (.other name) r
  | some scheme => withAuthority? scheme r (r.body.dropWhile scheme.isSlash)

def ofText? (s : List Char) : Option Url := ofReference? (Reference.ofText s)

end RobotsTxt.Url
