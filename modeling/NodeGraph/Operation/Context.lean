import NodeGraph.Event
import NodeGraph.Random

/-!
# The context of operations

Operations share nothing with each other. What they can see and change besides their inputs is the
session's random stream and its count of coercions that fell back to zero.

There are two ways to coerce: `Context.convert` gives a value of a type, for a slot, and
`Context.coerce` gives its data, for an operation or a readout. Both count and report a fallback in
the same way.
-/

namespace NodeGraph

/-- The number of coercions that fell back to zero. The counts are numbers without a bound;
`Host.New.tally_lt_size` says for how long counters of 64 bits agree with them. -/
structure Tally where
  /-- Since the count was last reset, which it is when a plan is installed. -/
  total : Nat := 0
  /-- In the latest pass, reading the sink included. -/
  lastPass : Nat := 0
  deriving DecidableEq, Repr

/-- What operations can see and change. Everything else about a session is out of their reach. -/
structure Context where
  stream : Random.Stream
  tally : Tally := {}
  deriving DecidableEq, Repr

namespace Context

/-- A context with the stream of a seed, and with nothing counted. -/
def ofSeed (seed : UInt64) : Context :=
  { stream := .ofSeed seed }

/-- Starts the count of a new pass. The total is kept. -/
def beginPass (c : Context) : Context :=
  { c with tally := { c.tally with lastPass := 0 } }

/-- Starts all counts anew. The random stream goes on where it is. -/
def resetTally (c : Context) : Context :=
  { c with tally := {} }

/-- The context after one more fallback, which goes to both counts. -/
def countFallback (c : Context) : Context :=
  { c with tally := ⟨c.tally.total + 1, c.tally.lastPass + 1⟩ }

/-- Counts and reports a fallback. Without a source type there was nothing to coerce. -/
def fallback (source : Option ValueType) (target : ValueType) : Logged Context Unit := do
  Logged.update countFallback
  Logged.report (.fallback source target)

/-- The data of a value coerced to a type. A fallback to zero is counted and reported. -/
def coerce (ty : ValueType) (v : Value) : Logged Context ty.Payload :=
  match v.as? ty with
  | some payload => return payload
  | none => do
    fallback v.type? ty
    return ty.zeroPayload

/-- A value coerced to a type. A fallback to zero is counted and reported. An absent value becomes a
zero without being a fallback. -/
def convert (v : Value) (ty : ValueType) : Logged Context Value :=
  match v.convert? ty with
  | some w => return w
  | none => do
    fallback v.type? ty
    return ty.zero

/-- Takes the next random scalar from the stream of the context. -/
def randomScalar : Logged Context Float32 := fun c =>
  let (x, stream) := c.stream.scalar
  { result := x, state := { c with stream } }

end Context

end NodeGraph
