import NodeGraph.Failure
import NodeGraph.Session.Command

/-!
# Events

Everything that the library reports while it works. Functions return the events they cause, oldest
first, and never look at events of others; the caller decides what to do with them.

A computation that reports is a `Logged` function: from a state it gives an `Outcome`, which is a
result, the next state and the events. These compose as a monad, so that sessions, passes and
operations are written as programs and stay functions that can be proved about.
-/

namespace NodeGraph

/-- How urgent an event is, from what has to be looked at down to what is of use only in a search
for a fault. -/
inductive Level where
  | error
  | warning
  | info
  | debug
  | trace
  deriving DecidableEq, Repr

/-- The level in a log line, as a word in capitals. -/
def Level.text : Level → String
  | .error => "ERROR"
  | .warning => "WARN"
  | .info => "INFO"
  | .debug => "DEBUG"
  | .trace => "TRACE"

/-- Something worth reporting. An event holds what its message says and nothing about when it
happened. -/
inductive Event where
  /-- A value could not be coerced, and a zero stands in its place. Without a source type there was
  no value to coerce. -/
  | fallback (source : Option ValueType) (target : ValueType)
  /-- An operation took the place of another one with the same number. -/
  | operationReplaced (op : OpCode) (previous current : String)
  /-- A graph was planned. Every plan is reported so, also if it is not installed. -/
  | planned (stats : PlanStats)
  /-- A session planned a graph and was asked to say so. -/
  | planStats (stats : PlanStats)
  | planRejected (defect : Defect)
  | planInstalled (stats : PlanStats)
  /-- A pass stopped with a fault. The session runs no further pass until a plan is installed. -/
  | faulted (fault : Fault)
  | rateRejected (failure : Failure)
  /-- A command found the queue full. The sender is not told in any other way. -/
  | commandDropped (command : Command)
  /-- Settings could not be read, and the standard ones stand in. -/
  | settingsDefaulted (failure : Failure)
  deriving DecidableEq

namespace Event

/-- How urgent the event is. Only a fault is an error: what is rejected leaves things as they were,
and is a warning. -/
def level : Event → Level
  | .fallback .. => .trace
  | .operationReplaced .. | .planned _ => .debug
  | .planStats _ | .planInstalled _ => .info
  | .planRejected _ | .rateRejected _ | .commandDropped _ | .settingsDefaulted _ => .warning
  | .faulted _ => .error

/-- A type, or that there is none, in a log message. -/
def typeText : Option ValueType → String
  | none => "None"
  | some ty => "Some(" ++ ty.name ++ ")"

/-- The event in words. How long planning took is not the library's to know, so the caller gives the
number of microseconds. -/
def message (micros : Nat) : Event → String
  | .fallback source target =>
    "Coercion fallback: " ++ typeText source ++ " -> " ++ target.label ++ " (zero substituted)"
  | .operationReplaced op previous current =>
    "Operation " ++ op.text ++ " '" ++ previous ++ "' replaced by '" ++ current ++ "'"
  | .planned s =>
    "Compiled number graph: " ++ toString s.active ++ " actions (" ++ toString s.active ++ " of " ++
      toString s.total ++ " nodes), " ++ toString s.slots ++ " slots, " ++ toString s.parameters ++
      " parameters in " ++ toString micros ++ "us"
  | .planStats s =>
    "Compile stats: CompileStats \x7b total_nodes: " ++ toString s.total ++
      ", active_nodes: " ++ toString s.active ++
      ", disconnected_nodes: " ++ toString s.disconnected ++
      ", slot_count: " ++ toString s.slots ++ ", parameters: " ++ toString s.parameters ++
      ", compile_time_us: " ++ toString micros ++ " \x7d"
  | .planRejected defect => "Compile failed, keeping current program: " ++ defect.message
  | .planInstalled s =>
    "Installing number graph program: " ++ toString s.active ++ " actions, " ++
      toString s.slots ++ " slots, " ++ toString s.parameters ++ " parameters"
  | .faulted fault => "Number graph faulted: " ++ fault.message
  | .rateRejected failure => "Rejected update rate: " ++ failure.message
  | .commandDropped command => "Number graph command queue full, dropping " ++ command.text
  | .settingsDefaulted failure =>
    "Failed to load config, using defaults: " ++ failure.message

end Event

/-- What a computation on a state of type `σ` leaves: its result, the next state, and the events
that it caused. A computation always leaves a state, also where its result is that something
failed. -/
structure Outcome (σ α : Type) where
  result : α
  state : σ
  events : List Event := []

/-- A computation on a state of type `σ` that reports events. It can see the state and not the
events before it. -/
def Logged (σ α : Type) := σ → Outcome σ α

namespace Logged

variable {σ α β : Type}

/-- Returns `a`, and neither changes the state nor reports anything. -/
protected def pure (a : α) : Logged σ α := fun s =>
  { result := a, state := s }

/-- One computation after another, in the state that the first one leaves. Events are in order. -/
protected def bind (x : Logged σ α) (f : α → Logged σ β) : Logged σ β := fun s =>
  let first := x s
  let second := f first.result first.state
  { result := second.result, state := second.state, events := first.events ++ second.events }

instance : Monad (Logged σ) where
  pure := Logged.pure
  bind := Logged.bind

/-- Reports an event and leaves the state as it is. -/
def report (e : Event) : Logged σ Unit := fun s =>
  { result := (), state := s, events := [e] }

/-- Changes the state and reports nothing. -/
def update (f : σ → σ) : Logged σ Unit := fun s =>
  { result := (), state := f s }

/-- Looks at the state and leaves it as it is. -/
def look (f : σ → α) : Logged σ α := fun s =>
  { result := f s, state := s }

end Logged

end NodeGraph
