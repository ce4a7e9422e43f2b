import RobotsTxt.Text.Utf8
import RobotsTxt.Text.Utf16

/-! The text of a fetched body.  A byte-order mark chooses between UTF-8 and the two orders of
UTF-16, and without one the body is UTF-8.  One more mark at the start of the text is dropped. -/

namespace RobotsTxt.Text

/-- The characters of a body, with its byte-order mark read as the choice of an encoding. -/
def decodeMarked : List UInt8 → List Char
  | 0xEF :: 0xBB :: 0xBF :: rest => Utf8.decode rest
  | 0xFF :: 0xFE :: rest => Utf16.decode .little rest
  | 0xFE :: 0xFF :: rest => Utf16.decode .big rest
  | bytes => Utf8.decode bytes

def dropMark : List Char → List Char
  | c :: rest => if c = '\uFEFF' then rest else c :: rest
  | [] => []

def decode (bytes : List UInt8) : List Char := dropMark (decodeMarked bytes)

end RobotsTxt.Text
