import RobotsTxt.Text.Digit

/-! Version 4 addresses as the host of a URL: one to four numbers, decimal, octal or hexadecimal,
the last of which fills all bytes that are left. -/

namespace RobotsTxt.Url.Ipv4

/-- A number of an address.  A leading `0x` makes it hexadecimal, another leading zero octal; after
`0x` no digit is needed. -/
def number? : List Char → Option Nat
  | [] => none
  | ['0'] => some 0
  | '0' :: 'x' :: digits => Text.natInBase? 16 digits
  | '0' :: 'X' :: digits => Text.natInBase? 16 digits
  | '0' :: digits => Text.natInBase? 8 digits
  | digits => Text.natInBase? 10 digits

/-- The parts of a host between its points, without an empty last one. -/
def parts (host : List Char) : List (List Char) :=
  let all := host.splitOn '.'
  if all.getLast? = some [] then all.dropLast else all

/-- Whether a host ends in a number, and so must be an address. -/
def endsInNumber (host : List Char) : Bool :=
  match (parts host).getLast? with
  | some last => (!last.isEmpty && last.all Char.isDigit) || (number? last).isSome
  | none => false

/-- The address that numbers make: each but the last is a byte, the last fills the rest. -/
def combine? (numbers : List Nat) : Option Nat :=
  match numbers.getLast? with
  | none => none
  | some last =>
    let bytes := numbers.dropLast
    let unit := Nat.pow 0x100 (4 - bytes.length)
    if numbers.length ≤ 4 && bytes.all (· ≤ 0xFF) && last < unit then
      some (bytes.foldl (fun n byte => 0x100 * n + byte) 0 * unit + last)
    else none

def ofText? (host : List Char) : Option Nat := ((parts host).mapM number?).bind combine?

def text (address : Nat) : List Char :=
  ['.'].intercalate
    ([0x1000000, 0x10000, 0x100, 1].map fun unit => Nat.toDigits 10 (address / unit % 0x100))

end RobotsTxt.Url.Ipv4
