import RobotsTxt.Decimal.Binary
import RobotsTxt.Rule

/-! Groups: the agents that a part of a robots.txt is for, and what it says to them. -/

namespace RobotsTxt

/-- The declared agents, in small letters and without repeats, and whether the wildcard is declared,
which is not kept as an agent. -/
structure Audience where
  agents : List String
  wildcard : Bool
deriving DecidableEq, Repr

def Audience.empty : Audience := ⟨[], false⟩

def Audience.declare (a : Audience) (agent : String) : Audience :=
  if agent = "*" then { a with wildcard := true }
  else if a.agents.contains agent then a
  else { a with agents := a.agents ++ [agent] }

/-- A crawl delay and the part of the group's audience that is declared before it, which is all that
it is for. -/
structure CrawlDelay where
  seconds : Float
  audience : Audience
deriving BEq, Repr

/-- The delay in whole milliseconds, a half rounded up, as far as 64 bits go. -/
def CrawlDelay.milliseconds (d : CrawlDelay) : Nat :=
  min (Decimal.Binary.ofFloat (d.seconds * 1000)).round (Nat.pow 2 64 - 1)

example : [2, 0.5, 0.0005, 0.0004, 1e30].map (fun s => CrawlDelay.milliseconds ⟨s, .empty⟩) =
    [2000, 500, 1, 0, 18446744073709551615] := by decide +kernel

/-- The lines from a run of `User-agent` lines to the next, in file order. -/
structure Group where
  audience : Audience
  rules : List Rule
  delays : List CrawlDelay
deriving BEq, Repr

/-- A group of which only one agent is read so far. -/
def Group.ofAgent (agent : String) : Group := ⟨Audience.empty.declare agent, [], []⟩

/-- The first crawl delay of the group, in seconds. -/
def Group.crawlDelay (g : Group) : Option Float := g.delays.head?.map CrawlDelay.seconds

end RobotsTxt
