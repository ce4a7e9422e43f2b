import RobotsTxt.Percent.Escape

/-! The normal form in which patterns and paths are compared.  In it, escapes of unreserved
characters are decoded, every other escape is kept with upper-case digits, and all characters that
are not plain are escaped, so `*` and `$` stand only for themselves. -/

namespace RobotsTxt.Percent

/-- A unit of path text: the escape of a byte, a percent sign that starts no escape, or another
character. -/
inductive Piece where
  | escaped (byte : UInt8)
  | stray
  | char (c : Char)
deriving DecidableEq, Repr

/-- The bytes that a piece stands for. -/
def Piece.bytes : Piece → List UInt8
  | .escaped byte => [byte]
  | .stray => [0x25]
  | .char c => String.utf8EncodeChar c

def scan : List Char → List Piece
  | '%' :: high :: low :: rest =>
    match byte? high low with
    | some byte => .escaped byte :: scan rest
    | none => .stray :: scan (high :: low :: rest)
  | c :: rest => (if c = '%' then .stray else .char c) :: scan rest
  | [] => []

/-- Letters and digits of ASCII, and `-`, `.`, `_` and `~`. -/
def isUnreserved (c : Char) : Bool := c.isAlphanum || c ∈ ['-', '.', '_', '~']

/-- Whether a character is its own normal form: visible ASCII other than `%`, `*` and `$`. -/
def isPlain (c : Char) : Bool := '!' ≤ c && c ≤ '~' && c ∉ ['%', '*', '$']

def Piece.normal : Piece → List Char
  | .escaped byte =>
    if isUnreserved (Char.ofNat byte.toNat) then [Char.ofNat byte.toNat] else escape byte
  | .stray => escape 0x25
  | .char c => if isPlain c then [c] else escapeChar c

def normalize (s : List Char) : List Char := (scan s).flatMap Piece.normal

/-- Whether a path text has a percent sign that starts no escape. -/
def malformed (s : List Char) : Bool := (scan s).contains .stray

end RobotsTxt.Percent
