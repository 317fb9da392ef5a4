import NodeGraph.Plan.Basic

/-!
# Commands

What a host can ask of a running session from outside. Commands wait in a queue until the session's
next frame, so that they never come in between the steps of a pass.
-/

namespace NodeGraph

/-- A request to a session. There is none that runs a pass, which only time and the host can do. -/
inductive Command where
  /-- Replace the installed plan. -/
  | install (plan : Plan)
  /-- Change the number of passes a second. -/
  | setRate (rate : Float32)
  /-- Remove the installed plan. -/
  | clear
  deriving DecidableEq

/-- The command in a log message. A plan is not shown. -/
def Command.text : Command → String
  | .install _ => "Install(<program>)"
  | .setRate rate => "SetUpdateRate(" ++ Decimal.Style.logged.scalar rate ++ ")"
  | .clear => "Clear"

end NodeGraph
