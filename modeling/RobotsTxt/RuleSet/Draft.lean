import RobotsTxt.Directive
import RobotsTxt.RuleSet
import RobotsTxt.Text.Lowercase
import RobotsTxt.Url.Relative

/-! A rule set in the making.  Directives are added one by one: a run of `User-agent` lines is the
header of a group, the first rule ends it, and the next `User-agent` line starts another group.
Crawl delays and sitemaps do not end a header. -/

namespace RobotsTxt

/-- Where in the file the next directive stands: before the first group, in the header of a group,
or after its first rule. -/
inductive Position where
  | outside
  | header (group : Group)
  | body (group : Group)
deriving BEq, Repr

/-- The groups that are complete, the position with the group in the making, the sitemaps, and the
number of warnings. -/
structure Draft where
  closed : List Group
  position : Position
  sitemaps : List String
  warnings : Nat
deriving BEq, Repr

namespace Draft

def empty : Draft := ⟨[], .outside, [], 0⟩

def warn (d : Draft) : Draft := { d with warnings := d.warnings + 1 }

def addAgent (d : Draft) (value : String) : Draft :=
  let agent := String.ofList (Text.lowercase (Text.trim value.toList))
  if agent.isEmpty then d.warn
  else match d.position with
    | .outside => { d with position := .header (Group.ofAgent agent) }
    | .header g => { d with position := .header { g with audience := g.audience.declare agent } }
    | .body g => { d with closed := d.closed ++ [g], position := .header (Group.ofAgent agent) }

/-- Adds a rule.  One with a stray percent sign is kept, with a warning. -/
def addRule (d : Draft) (verdict : Verdict) (value : String) : Draft :=
  let append (g : Group) : Draft :=
    { d with
      position := .body { g with rules := g.rules ++ [Rule.ofValue verdict value] }
      warnings := if Pattern.malformed value then d.warnings + 1 else d.warnings }
  match d.position with
  | .outside => d.warn
  | .header g => append g
  | .body g => append g

/-- A group with one more crawl delay, for the agents declared so far. -/
def withDelay (g : Group) (seconds : Float) : Group :=
  { g with delays := g.delays ++ [⟨seconds, g.audience⟩] }

def addDelay (d : Draft) (seconds : Float) : Draft :=
  match d.position with
  | .outside => d.warn
  | .header g => { d with position := .header (withDelay g seconds) }
  | .body g => { d with position := .body (withDelay g seconds) }

variable [Domains]

/-- The URL of a sitemap: a value that is a URL stands as it is, and one without a scheme is taken
beside the URL of the file. -/
def sitemapUrl? (base : Option Url) (value : String) : Option String :=
  let reference := Url.Reference.ofText value.toList
  match reference.scheme with
  | some _ => (Url.ofReference? reference).map fun _ => value
  | none => do
    let url ← Url.relative? (← base) reference
    some (String.ofList url.text)

/-- Adds a sitemap, if it is not there yet. -/
def addSitemap (base : Option Url) (d : Draft) (value : String) : Draft :=
  match sitemapUrl? base value with
  | none => d.warn
  | some url => if d.sitemaps.contains url then d else { d with sitemaps := d.sitemaps ++ [url] }

def add (base : Option Url) (d : Draft) : Directive → Draft
  | .userAgent value => d.addAgent value
  | .rule verdict value => d.addRule verdict value
  | .crawlDelay seconds => d.addDelay seconds
  | .sitemap value => d.addSitemap base value
  | .extension _ _ => d
  | .unknown _ _ => d.warn
  | .invalid _ _ => d.warn

/-- All groups, with the one in the making last. -/
def groups (d : Draft) : List Group :=
  match d.position with
  | .outside => d.closed
  | .header g => d.closed ++ [g]
  | .body g => d.closed ++ [g]

def finish (d : Draft) : RuleSet := ⟨d.groups, d.sitemaps, d.warnings⟩

end Draft

end RobotsTxt
