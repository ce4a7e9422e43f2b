import RobotsTxt.Url.Host
import RobotsTxt.Url.Path
import RobotsTxt.Url.Reference
import RobotsTxt.Url.Scheme

/-! URLs and their text. -/

namespace RobotsTxt

namespace Url

/-- Who is asked: the credentials, which may be empty, the host, which may be empty in some schemes,
and a port other than the one that goes without saying. -/
structure Authority where
  user : List Char
  password : List Char
  host : Option Host
  port : Option Nat
deriving DecidableEq, Repr

def Authority.text (a : Authority) : List Char :=
  let password := if a.password.isEmpty then [] else ':' :: a.password
  let credentials := a.user ++ password
  (if credentials.isEmpty then [] else credentials ++ ['@']) ++
    (a.host.map Host.text).getD [] ++ (a.port.map fun port => ':' :: Nat.toDigits 10 port).getD []

end Url

open Url in
structure Url where
  scheme : Scheme
  authority : Option Authority
  path : Path
  query : Option (List Char)
  fragment : Option (List Char)
deriving DecidableEq, Repr

namespace Url

def queryOf (scheme : Scheme) (r : Reference) : Option (List Char) :=
  r.query.map (encode (if scheme.isSpecial then inSpecialQuery else inQuery))

def fragmentOf (r : Reference) : Option (List Char) := r.fragment.map (encode inFragment)

/-- The URL of a scheme with the query and fragment of a reference. -/
def withParts (scheme : Scheme) (r : Reference) (authority : Option Authority) (path : Path) :
    Url :=
  ⟨scheme, authority, path, queryOf scheme r, fragmentOf r⟩

/-- The host of a URL, if it is not empty. -/
def host (u : Url) : Option Host := u.authority.bind Authority.host

/-- The text of the path, behind a point where it would otherwise be taken for an authority. -/
def guardedPath (u : Url) : List Char :=
  if u.authority.isNone && "//".toList.isPrefixOf u.path.text then "/.".toList ++ u.path.text
  else u.path.text

def text (u : Url) : List Char :=
  u.scheme.name ++ [':'] ++ (u.authority.map fun a => "//".toList ++ a.text).getD [] ++
    u.guardedPath ++ (u.query.map ('?' :: ·)).getD [] ++ (u.fragment.map ('#' :: ·)).getD []

end Url

end RobotsTxt
