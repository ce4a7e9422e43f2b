import RobotsTxt.RuleSet.Draft
import RobotsTxt.Text.Decode

/-! Reading a robots.txt.  It never fails: a body that is not of a text type gives an empty rule
set with one warning. -/

namespace RobotsTxt.RuleSet

variable [Domains]

/-- The rule set of directives in a file at `base`. -/
def ofDirectives (base : Option Url) (directives : List Directive) : RuleSet :=
  (directives.foldl (Draft.add base) Draft.empty).finish

def ofText (base : Option Url) (text : List Char) : RuleSet :=
  ofDirectives base ((Directive.ofText text).map Prod.snd)

/-- Whether a content type is blank or starts with `text/`. -/
def isText (contentType : String) : Bool :=
  let trimmed := Text.trim contentType.toList
  trimmed.isEmpty || (trimmed.take 5).map Char.toLower = "text/".toList

/-- The rule set of a body that was fetched from a URL. -/
def parse (robotsUrl : String) (body : List UInt8) (contentType : String) : RuleSet :=
  if isText contentType then ofText (Url.ofText? robotsUrl.toList) (Text.decode body)
  else { empty with warnings := 1 }

end RobotsTxt.RuleSet
