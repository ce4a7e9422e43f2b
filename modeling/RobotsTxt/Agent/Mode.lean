/-! The two ways in which the names of a crawler meet the agents that a group declares. -/

namespace RobotsTxt.Agent

/-- In exact mode a name must be a declared agent or its leading product token.  In word mode it may
also be one of the words of a declared agent, or contain one. -/
inductive Mode where
  | exact
  | byWord
deriving DecidableEq, Repr

end RobotsTxt.Agent
