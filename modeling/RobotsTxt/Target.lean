import RobotsTxt.Url.Parse

/-! What of a target rules are asked about: the path and query of a URL, or a path as it is given.
A text that is neither is taken for a path without its slash. -/

namespace RobotsTxt.Target

/-- The path and query of a URL, where an empty path counts as the root. -/
def ofUrl (u : Url) : List Char :=
  (if u.path.text.isEmpty then ['/'] else u.path.text) ++ (u.query.map ('?' :: ·)).getD []

/-- Whether a URL has a path with segments. -/
def isHierarchical (u : Url) : Bool :=
  match u.path with
  | .rooted _ => true
  | .rootless _ => false

variable [Domains]

def pathAndQuery (target : String) : String :=
  match target.toList with
  | '/' :: rest => String.ofList ('/' :: rest.takeWhile (· ≠ '#'))
  | s =>
    match (Url.ofText? s).filter isHierarchical with
    | some url => String.ofList (ofUrl url)
    | none => String.ofList ('/' :: s)

end RobotsTxt.Target
