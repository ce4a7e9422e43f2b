import RobotsTxt.Url.Parse

/-! The URL that a reference without a scheme stands for beside another URL. -/

namespace RobotsTxt.Url

/-! ### References without a path -/

/-- A reference without a path keeps the path, and without a query also the query.  A path without
segments lets only the fragment change. -/
def withoutPath? (base : Url) (r : Reference) : Option Url :=
  match base.path, r.query, r.fragment with
  | _, none, some _ => some { base with fragment := fragmentOf r }
  | .rootless _, _, _ => none
  | _, none, none => some { base with fragment := none }
  | path, some _, _ => some (withParts base.scheme r base.authority path)

/-! ### References with a path -/

variable [Domains]

/-- Beside a URL whose path has segments and whose scheme is not that of files: two slashes, or
backslashes, start an authority, one the path from the root, and anything else takes the place of
the last segment. -/
def besideSegments? (base : Url) (segs : List (List Char)) (r : Reference) : Option Url :=
  let isSlash (c : Char) : Bool := c = '/' || c = '\\'
  let under (above : List (List Char)) (s : List Char) : Url :=
    withParts base.scheme r base.authority
      (.rooted (Path.resolve above (segments base.scheme s)))
  match (r.body.takeWhile isSlash).length with
  | 0 => some (under segs.dropLast r.body)
  | 1 => some (under [] (r.body.drop 1))
  | _ =>
    withAuthority? base.scheme r
      (if "//".toList.isPrefixOf r.body then r.body.drop 2 else r.body.dropWhile isSlash)

/-- The URL that a reference without a scheme stands for beside a URL. -/
def relative? (base : Url) (r : Reference) : Option Url :=
  if r.body.isEmpty then withoutPath? base r
  else match base.path with
    | .rootless _ => none
    | .rooted segs =>
      if base.scheme = .file then File.relative? base segs r else besideSegments? base segs r

end RobotsTxt.Url
