import RobotsTxt.Agent.Match
import RobotsTxt.Agent.Name
import RobotsTxt.Policy
import RobotsTxt.RuleSet

/-! How a crawler reads rule sets: which groups it obeys, what their rules and crawl delays add up
to, and the delay that is as good as a refusal. -/

namespace RobotsTxt

/-- How names are matched, and from which crawl delay on, in milliseconds, nothing is fetched. -/
structure Settings where
  mode : Agent.Mode
  maxCrawlDelay : Option Nat
  matcher : Agent.Matcher

namespace Settings

def standard : Settings := ⟨.exact, some 3600000, Agent.byProductToken⟩

def addresses (s : Settings) (names : List String) (g : Group) : Bool :=
  !names.isEmpty && !g.audience.agents.isEmpty && s.matcher names g.audience.agents s.mode

def named (s : Settings) (names : List String) (groups : List Group) : List Group :=
  groups.filter (s.addresses names)

/-- Whether the crawler is one of those that only the wildcard is for. -/
def byWildcard (s : Settings) (names : List String) (groups : List Group) : Bool :=
  (s.named names groups).isEmpty

/-- The groups that a crawler obeys: those that name it, or else those for everyone. -/
def selected (s : Settings) (names : List String) (groups : List Group) : List Group :=
  if s.byWildcard names groups then groups.filter (·.audience.wildcard)
  else s.named names groups

/-- Whether a crawl delay in a group that the crawler obeys is for the crawler. -/
def covers (s : Settings) (names : List String) (groups : List Group) (d : CrawlDelay) : Bool :=
  if s.byWildcard names groups then d.audience.wildcard
  else s.matcher names d.audience.agents s.mode

/-- The first crawl delay for the crawler in the groups that it obeys, in milliseconds. -/
def crawlDelay (s : Settings) (names : List String) (groups : List Group) : Option Nat :=
  (((s.selected names groups).flatMap Group.delays).find? (s.covers names groups)).map
    CrawlDelay.milliseconds

def refuses (s : Settings) (delay : Option Nat) : Bool :=
  match delay, s.maxCrawlDelay with
  | some ms, some max => max ≤ ms
  | _, _ => false

/-- The access that groups give to a crawler whose names are ready for matching. -/
def access (s : Settings) (names : List String) (groups : List Group) : Access :=
  let obeyed := s.selected names groups
  let delay := s.crawlDelay names groups
  if obeyed.isEmpty then .all
  else if s.refuses delay then .none
  else .byRules (Rule.inPrecedence (obeyed.flatMap Group.rules)) delay

/-- The policy of a rule set for a crawler whose names are ready for matching. -/
def policy (s : Settings) (names : List String) (rules : RuleSet) : Policy :=
  ⟨s.access names rules.groups, rules.sitemaps, false⟩

/-- The policy of a rule set for a crawler, or what is wrong with its names. -/
def evaluate (s : Settings) (names : List String) (rules : RuleSet) : Except Error Policy :=
  (Agent.prepare s.mode names).map (s.policy · rules)

end Settings

end RobotsTxt
