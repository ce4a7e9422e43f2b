import RobotsTxt.Error
import RobotsTxt.Rule
import RobotsTxt.Target

/-! What a crawler may do on a host. -/

namespace RobotsTxt

/-- Which paths may be fetched: all, none, or what rules in precedence order say, with the time in
milliseconds that is to pass between visits, if the file gives one. -/
inductive Access where
  | all
  | none
  | byRules (rules : List Rule) (crawlDelay : Option Nat)
deriving DecidableEq, Repr

/-- The access of a crawler, the sitemaps of the file, and whether visits should be put off. -/
structure Policy where
  access : Access
  sitemaps : List String
  defersVisits : Bool
deriving DecidableEq, Repr

namespace Policy

def allowAll : Policy := ⟨.all, [], false⟩

instance : Inhabited Policy := ⟨allowAll⟩

def disallowAll : Policy := ⟨.none, [], false⟩

/-- What the status of a failed fetch means: after redirects without end and errors of the server
nothing may be fetched for now, and after errors of the client there is no robots.txt. -/
def ofStatus (status : Nat) : Except Error Policy :=
  if (300 ≤ status && status < 400) || (500 ≤ status && status < 600) then
    .ok { disallowAll with defersVisits := true }
  else if 400 ≤ status && status < 500 then .ok allowAll
  else .error (.notAFailedFetch status)

def rules (p : Policy) : List Rule :=
  match p.access with
  | .byRules rules _ => rules
  | _ => []

/-- The time between visits in milliseconds. -/
def crawlDelay (p : Policy) : Option Nat :=
  match p.access with
  | .byRules _ crawlDelay => crawlDelay
  | _ => none

def allowsAll (p : Policy) : Bool := p.access = .all

def allowsNone (p : Policy) : Bool := p.access = .none

/-- What the first rule that matches a path in normal form says.  Without one it is allowed. -/
def allowsPath (rules : List Rule) (path : List Char) : Bool :=
  match rules.find? fun rule => rule.pattern.matchesNormal path with
  | some rule => rule.allows
  | none => true

variable [Domains]

/-- Whether a target may be fetched.  Where rules decide, the robots.txt itself always may. -/
def allows (p : Policy) (target : String) : Bool :=
  match p.access with
  | .all => true
  | .none => false
  | .byRules rules _ =>
    let path := Target.pathAndQuery target
    path = "/robots.txt" || allowsPath rules (Percent.normalize path.toList)

def text (p : Policy) : String :=
  let access := match p.access with
    | .all => "allow all"
    | .none => "allow none"
    | .byRules rules _ => toString rules.length ++ " rules"
  let delay := match p.crawlDelay with
    | some ms => ", crawl-delay " ++ toString ms ++ "ms"
    | none => ""
  let sitemaps :=
    if p.sitemaps.isEmpty then "" else ", " ++ toString p.sitemaps.length ++ " sitemaps"
  access ++ delay ++ sitemaps ++ if p.defersVisits then ", deferred" else ""

end Policy

end RobotsTxt
