import NodeGraph.Session.Pacer

/-!
# Settings

How a session runs: its rate, the seed of its random stream, and whether it reports on planning.
Settings are data, and may hold a rate that no session can have. `Settings.validate` tells, and so
does the making of a session.
-/

namespace NodeGraph

/-- The settings of a session. Each has a value that stands in where a document does not say. -/
structure Settings where
  /-- How many passes there are in a second, the standard rate if nothing else is said. -/
  rate : Float32 := Pacer.standardRate
  /-- The seed of the random stream; without one the stream differs from run to run. -/
  seed : Option UInt64 := none
  /-- Whether a session that plans a graph says what the planning came to. -/
  logStats : Bool := true
  deriving DecidableEq

namespace Settings

/-- Whether the settings can be used. Only the rate can stand in the way. -/
def validate (s : Settings) : Except SettingsProblem Unit := do
  let _ ← Pacer.intervalOf s.rate
  return ()

/-- Equality with the rate compared as a number, so that a rate that is no number makes settings
differ from themselves. -/
def equal (s t : Settings) : Bool :=
  s.rate == t.rate && s.seed = t.seed && s.logStats = t.logStats

end Settings

end NodeGraph
