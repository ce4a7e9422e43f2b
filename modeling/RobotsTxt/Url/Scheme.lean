/-! URL schemes.  The special ones always have a host and a path, take backslashes for slashes, and
have a port that goes without saying. -/

namespace RobotsTxt.Url

/-- A scheme, in small letters. -/
inductive Scheme where
  | http
  | https
  | ws
  | wss
  | ftp
  | file
  | other (name : List Char)
deriving DecidableEq, Repr

namespace Scheme

def ofName (name : List Char) : Scheme :=
  if name = "http".toList then http
  else if name = "https".toList then https
  else if name = "ws".toList then ws
  else if name = "wss".toList then wss
  else if name = "ftp".toList then ftp
  else if name = "file".toList then file
  else other name

def name : Scheme → List Char
  | http => "http".toList
  | https => "https".toList
  | ws => "ws".toList
  | wss => "wss".toList
  | ftp => "ftp".toList
  | file => "file".toList
  | other name => name

def isSpecial : Scheme → Bool
  | other _ => false
  | _ => true

/-- The port that is not written. -/
def defaultPort? : Scheme → Option Nat
  | http | ws => some 80
  | https | wss => some 443
  | ftp => some 21
  | file | other _ => none

/-- Whether `c` separates segments of the path: a slash, and in a special scheme a backslash. -/
def isSlash (scheme : Scheme) (c : Char) : Bool := c = '/' || (scheme.isSpecial && c = '\\')

end Scheme

end RobotsTxt.Url
