import NodeGraph.Duration
import NodeGraph.Plan.Defect
import NodeGraph.Text.Quoted

/-!
# Failures

What can go wrong, as causes: a `Fault` stops a pass, a `SettingsProblem` is about the settings file
or the rate in it, and a `Failure` is any of these, or a file or document that cannot be used,
possibly within a context. Each has its words in one place, and the causes beneath a failure can be
listed apart from it.
-/

namespace NodeGraph

/-- Why a pass stops. A plan that was made for the session's table never stops with either, so that
a fault means that a plan came from elsewhere. -/
inductive Fault where
  | unknownOperation (op : OpCode)
  | slotOutOfBounds (slot : Slot) (size : Nat)
  deriving DecidableEq, Repr

/-- The fault in words. A slot out of bounds comes with the size that there would have to be more
than. -/
def Fault.message : Fault → String
  | .unknownOperation op => "No operation registered for " ++ op.text
  | .slotOutOfBounds slot size =>
    "Slot " ++ slot.text ++ " out of bounds (slot array holds " ++ toString size ++ ")"

/-- What can be wrong with the settings. The first three are about the rate, which can also come
from a command, and the others about the file. -/
inductive SettingsProblem where
  /-- The rate is not a positive number, or is infinite. -/
  | rateNotPositive (rate : Float32)
  /-- The time between two passes is no span, because the rate is too low. -/
  | rateInterval (rate : Float32) (error : Duration.Error)
  /-- The time between two passes rounds to nothing. -/
  | rateTooHigh (rate : Float32)
  | unreadable (path : String) (detail : String)
  | malformed (path : String) (detail : String)
  | unwritable (detail : String)
  /-- A value has no written form. -/
  | unprintable (detail : String)
  deriving DecidableEq

namespace SettingsProblem

/-- The rate in a message, under the name that it has in the settings file. -/
def rateText (rate : Float32) : String :=
  "updates_per_second " ++ Decimal.Style.plain.scalar rate

/-- The problem in words. The detail of a file or of a parser is taken over as it is. -/
def message : SettingsProblem → String
  | .rateNotPositive rate =>
    "updates_per_second must be finite and positive, got " ++ Decimal.Style.plain.scalar rate
  | .rateInterval rate error => rateText rate ++ " gives an invalid interval: " ++ error.message
  | .rateTooHigh rate => rateText rate ++ " is too high"
  | .unreadable path detail =>
    "Failed to read config file " ++ Text.quoted path ++ ": " ++ detail
  | .malformed path detail =>
    "Failed to parse config file " ++ Text.quoted path ++ ": " ++ detail
  | .unwritable detail => "Failed to write config: " ++ detail
  | .unprintable detail => "Failed to serialize config: " ++ detail

end SettingsProblem

/-- Why a request cannot be met. Contexts can be put around a failure, such as the path of the file
in which it was found. -/
inductive Failure where
  | planning (defect : Defect)
  | running (fault : Fault)
  | settings (problem : SettingsProblem)
  /-- A file operation failed, with the system's words. -/
  | file (detail : String)
  /-- A text is no graph document. -/
  | document (detail : String)
  | within (context : String) (cause : Failure)
  deriving DecidableEq

namespace Failure

/-- The failure in words, all on one line. Contexts come first, and the words for the kind of
failure stand in front of the cause itself. -/
def message : Failure → String
  | .planning defect => "Compile error: " ++ defect.message
  | .running fault => "Runtime error: " ++ fault.message
  | .settings problem => "Configuration error: " ++ problem.message
  | .file detail => "IO error: " ++ detail
  | .document detail => "Serialization error: Failed to parse graph: " ++ detail
  | .within context cause => context ++ ": " ++ cause.message

/-- The words of the causes beneath, outermost first. A failure that says everything in its own
message has none. -/
def causes : Failure → List String
  | .planning defect => [defect.message]
  | .running fault => [fault.message]
  | .settings _ | .document _ => []
  | .file detail => [detail]
  | .within _ cause => cause.message :: cause.causes

/-- The failure within several contexts, the last one outermost. -/
def withContexts (f : Failure) (contexts : List String) : Failure :=
  contexts.foldl (fun f context => .within context f) f

end Failure

end NodeGraph
