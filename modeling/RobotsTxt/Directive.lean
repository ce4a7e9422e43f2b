import RobotsTxt.Decimal.Numeral
import RobotsTxt.Decimal.Shortest
import RobotsTxt.Field
import RobotsTxt.Text.Line
import RobotsTxt.Text.Utf8

/-! The directives of a robots.txt text, one for each line that counts.  Reading a line never
fails: a line of no known field is an unknown directive, and a known field with a value that is of
no use is an invalid one. -/

namespace RobotsTxt

/-- What one line says. -/
inductive Directive where
  | userAgent (agent : String)
  | rule (verdict : Verdict) (pattern : String)
  | crawlDelay (seconds : Float)
  | sitemap (url : String)
  | extension (field value : String)
  | unknown (field value : String)
  | invalid (field value : String)
deriving BEq, Repr

namespace Directive

def text : Directive → String
  | userAgent agent => "User-agent: " ++ agent
  | rule verdict pattern => verdict.label ++ ": " ++ pattern
  | crawlDelay seconds => "Crawl-delay: " ++ Decimal.shortest seconds
  | sitemap url => "Sitemap: " ++ url
  | extension field value => field ++ ": " ++ value
  | unknown field value => field ++ ": " ++ value
  | invalid field value => field ++ ": " ++ value

/-- The line as a field and value that are not known, split at its first colon. -/
def ofUnknown (line : List Char) : Directive :=
  match line.span (· ≠ ':') with
  | (field, _ :: value) =>
    unknown (String.ofList (Text.trim field)) (String.ofList (Text.trim value))
  | (_, []) => unknown (String.ofList line) ""

/-- A crawl delay is a numeral for a finite number of seconds that is not negative. -/
def delay? (value : List Char) : Option Float :=
  match Decimal.Numeral.ofText? value with
  | some numeral =>
    if numeral.toFloat.isFinite && 0 ≤ numeral.toFloat then some numeral.toFloat else none
  | none => none

/-- The directive of a line with a known field, from the name as written and the value. -/
def ofField (field : Field) (name value line : List Char) : Directive :=
  let asInvalid := invalid (String.ofList name) (String.ofList value)
  match field with
  | .userAgent => userAgent (String.ofList value)
  | .rule verdict =>
    if value.contains Text.Utf8.replacement then asInvalid
    else rule verdict (String.ofList value)
  | .crawlDelay =>
    match delay? value with
    | some seconds => crawlDelay seconds
    | none => asInvalid
  | .sitemap => if value.isEmpty then asInvalid else sitemap (String.ofList value)
  | .extension => extension (String.ofList (Text.trim name)) (String.ofList value)
  | .bareUrl =>
    if "//".toList.isPrefixOf value then sitemap (String.ofList line) else ofUnknown line

/-- Reads a line as a known field, a colon and a value. -/
def ofColon? (line : List Char) : Option Directive :=
  match line.span (· ≠ ':') with
  | (name, _ :: value) =>
    (Field.ofName? name).map fun field =>
      ofField field name (Text.trimEnd (value.dropWhile Field.isGap)) line
  | _ => none

/-- Reads a line as a known field and a value without a colon. -/
def ofBare? (line : List Char) : Option Directive :=
  (Field.splitBare? line).map fun (field, name, value) =>
    ofField field name (Text.trimEnd value) line

/-- The directive of a line, which is trimmed, free of comments and markup, and not empty. -/
def ofLine (line : List Char) : Directive :=
  ((ofColon? line).or (ofBare? line)).getD (ofUnknown line)

/-- The directives of a text, each with the number of its line, from 1. -/
def ofText (s : List Char) : List (Nat × Directive) :=
  (((Text.lines s).map Text.clean).zipIdx 1).filterMap fun (line, number) =>
    if line.isEmpty then none else some (number, ofLine line)

end Directive

end RobotsTxt
