import RobotsTxt.Text.Digit

/-! The escape of a byte in a URL: a percent sign and the two hexadecimal digits of the byte. -/

namespace RobotsTxt.Percent

/-- The byte that two hexadecimal digits stand for. -/
def byte? (high low : Char) : Option UInt8 :=
  match Text.digitValue? high, Text.digitValue? low with
  | some h, some l => some (UInt8.ofNat (16 * h + l))
  | _, _ => none

def escape (byte : UInt8) : List Char :=
  ['%', Text.hexDigit (byte.toNat / 16), Text.hexDigit (byte.toNat % 16)]

/-- A character as the escapes of its UTF-8 bytes. -/
def escapeChar (c : Char) : List Char := (String.utf8EncodeChar c).flatMap escape

end RobotsTxt.Percent
