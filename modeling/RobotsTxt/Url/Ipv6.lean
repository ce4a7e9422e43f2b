import RobotsTxt.Text.Digit

/-! Version 6 addresses as the host of a URL: eight pieces of up to four hexadecimal digits, where
two colons may stand for one or more pieces of zero and a version 4 address for the last two. -/

namespace RobotsTxt.Url.Ipv6

/-- A piece of one to four hexadecimal digits. -/
def piece? (s : List Char) : Option Nat :=
  if s.isEmpty || 4 < s.length then none else Text.natInBase? 16 s

/-- A decimal byte without leading zeros. -/
def byte? (s : List Char) : Option Nat :=
  if s.isEmpty || 3 < s.length || (s.head? = some '0' && s ≠ ['0']) then none
  else (Text.natInBase? 10 s).filter (· ≤ 0xFF)

/-- The two pieces that a version 4 address in four decimal numbers stands for. -/
def ipv4Pieces? (s : List Char) : Option (List Nat) :=
  match (s.splitOn '.').mapM byte? with
  | some [a, b, c, d] => some [0x100 * a + b, 0x100 * c + d]
  | _ => none

/-- The pieces between single colons.  Only at the end of an address may a version 4 address be the
last. -/
def pieces? (atEnd : Bool) : List (List Char) → Option (List Nat)
  | [] => some []
  | [last] =>
    if atEnd && last.contains '.' then ipv4Pieces? last else (piece? last).map ([·])
  | first :: rest => do
    let p ← piece? first
    let ps ← pieces? atEnd rest
    some (p :: ps)

/-- The parts of a text between its colons; the empty text has none. -/
def colonParts (s : List Char) : List (List Char) := if s.isEmpty then [] else s.splitOn ':'

/-- Splits a text at the first two colons in a row. -/
def splitGap? : List Char → Option (List Char × List Char)
  | ':' :: ':' :: rest => some ([], rest)
  | c :: rest => (splitGap? rest).map fun (before, after) => (c :: before, after)
  | [] => none

/-- Reads the text between the brackets of a host as an address. -/
def ofText? (s : List Char) : Option (List Nat) :=
  match splitGap? s with
  | none => (pieces? true (s.splitOn ':')).filter (·.length = 8)
  | some (before, after) => do
    let front ← pieces? false (colonParts before)
    let back ← pieces? true (colonParts after)
    if front.length + back.length ≤ 7 then
      some (front ++ List.replicate (8 - front.length - back.length) 0 ++ back)
    else none

def zeros (pieces : List Nat) : Nat := (pieces.takeWhile (· = 0)).length

/-- The place and length of the longest run of zeros, the first one of several. -/
def longestGap (pieces : List Nat) : Nat × Nat :=
  (List.range pieces.length).foldl
    (fun best i => if best.2 < zeros (pieces.drop i) then (i, zeros (pieces.drop i)) else best)
    (0, 0)

/-- Pieces in hexadecimal, with colons between them. -/
def joined (pieces : List Nat) : List Char := [':'].intercalate (pieces.map (Nat.toDigits 16))

/-- An address with two colons for its longest run of two or more zeros. -/
def text (pieces : List Nat) : List Char :=
  let (start, length) := longestGap pieces
  if length < 2 then joined pieces
  else joined (pieces.take start) ++ [':', ':'] ++ joined (pieces.drop (start + length))

end RobotsTxt.Url.Ipv6
