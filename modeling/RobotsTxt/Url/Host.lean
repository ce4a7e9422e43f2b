import RobotsTxt.Percent.Normal
import RobotsTxt.Url.Encode
import RobotsTxt.Url.Ipv4
import RobotsTxt.Url.Ipv6

/-! The host of a URL.  In a special scheme escapes of a name are decoded and letters are made
small; in any other the name is kept as it is.  In a special scheme a name outside of ASCII is
written in ASCII, with labels that are marked for it, by tables that are not part of this library.
-/

namespace RobotsTxt

/-- How names of hosts are written in ASCII, where that takes more than small letters: a name as
bytes, and its form in ASCII, if it has one. -/
class Domains where
  toAscii? : List UInt8 → Option (List Char)

namespace Domains

/-- The characters of bytes of ASCII, letters in small. -/
def small (bytes : List UInt8) : List Char := bytes.map fun byte => (Char.ofNat byte.toNat).toLower

/-- Where no tables are given, a marked label is taken for what it says, and names outside of ASCII
are not read. -/
instance withoutTables : Domains := ⟨fun bytes =>
  if bytes.all (· < 0x80) then some (small bytes) else none⟩

end Domains

namespace Url

/-- A name or an address. -/
inductive Host where
  | name (text : List Char)
  | ipv4 (address : Nat)
  | ipv6 (pieces : List Nat)
deriving DecidableEq, Repr

namespace Host

def text : Host → List Char
  | name text => text
  | ipv4 address => Ipv4.text address
  | ipv6 pieces => '[' :: Ipv6.text pieces ++ [']']

/-- Reads the text in brackets as an address. -/
def bracketed? (s : List Char) : Option Host :=
  if s.getLast? = some ']' then (Ipv6.ofText? s.dropLast).map ipv6 else none

/-- The bytes of a name are ASCII, and no label is marked as the form in ASCII of another. -/
def isSimple (bytes : List UInt8) : Bool :=
  bytes.all (· < 0x80) &&
    !((Domains.small bytes).splitOn '.').any fun label => "xn--".toList.isPrefixOf label

/-- The form in ASCII of a name. -/
def domain? [Domains] (bytes : List UInt8) : Option (List Char) :=
  if isSimple bytes then some (Domains.small bytes) else Domains.toAscii? bytes

def isForbidden (c : Char) : Bool :=
  c.toNat ≤ 0x20 || c.toNat = 0x7F ||
    c ∈ ['#', '%', '/', ':', '<', '>', '?', '@', '[', '\\', ']', '^', '|']

/-- Whether `c` may not stand in the name of a host whose scheme is not special. -/
def isForbiddenOther (c : Char) : Bool :=
  c ∈ ['\x00', '\t', '\n', '\r', ' ', '#', '/', ':', '<', '>', '?', '@', '[', '\\', ']', '^', '|']

/-- Reads the host of a special scheme. -/
def ofText? [Domains] : List Char → Option Host
  | '[' :: rest => bracketed? rest
  | s => do
    let domain ← domain? ((Percent.scan s).flatMap Percent.Piece.bytes)
    if domain.isEmpty || domain.any isForbidden then none
    else if Ipv4.endsInNumber domain then (Ipv4.ofText? domain).map ipv4
    else some (name domain)

/-- Reads the host of a scheme that is not special. -/
def ofOtherText? : List Char → Option Host
  | '[' :: rest => bracketed? rest
  | s => if s.any isForbiddenOther then none else some (name (encode isUnsafe s))

end Host

end Url

end RobotsTxt
