import NodeGraph.Operation.Table
import NodeGraph.Pass.SlotStore

/-!
# Passes

A pass clears the slots and executes the steps of a plan in order. A step takes its operands,
invokes its operation, coerces each value it gets to the type of its destination and writes it. A
pass that meets a fault stops there, and what the steps before it did remains.

The values of operands and those that an operation gives stand in two lists (`Scratch`) that serve
all steps and all passes. A step clears each of them before it puts something in.
-/

namespace NodeGraph

/-- The lists in which steps keep what they are at. They hold what the last step put there, also if
a fault stopped it, and are not cleared between passes or when a plan is installed. -/
structure Scratch where
  /-- The values of the operands, in order. -/
  inputs : List Value := []
  /-- The values that the operation gave, before they are coerced. -/
  outputs : List Value := []
  deriving DecidableEq

/-- What a pass works on. The context is that of the session, and the scratch lists are the
session's too, so that passes find there what others have left. -/
structure Frame where
  store : SlotStore
  context : Context
  scratch : Scratch := {}
  deriving DecidableEq

namespace Frame

/-- The frame with no inputs. A step starts with it, before its first operand is looked up. -/
def clearInputs (f : Frame) : Frame :=
  { f with scratch := ⟨[], f.scratch.outputs⟩ }

/-- The frame with one more input, behind those that are there. -/
def pushInput (f : Frame) (v : Value) : Frame :=
  { f with scratch := ⟨f.scratch.inputs ++ [v], f.scratch.outputs⟩ }

/-- The frame with no outputs. A step clears them right before it invokes its operation. -/
def clearOutputs (f : Frame) : Frame :=
  { f with scratch := ⟨f.scratch.inputs, []⟩ }

end Frame

/-- The result of a part of a pass: the fault that stopped it, if there was one, and the frame and
events up to then. -/
abbrev Progress := Outcome Frame (Option Fault)

namespace Progress

/-- Nothing done yet, from a frame. -/
def start (f : Frame) : Progress :=
  { result := none, state := f }

/-- The same part, stopped by a fault. The frame is as it was. -/
def stop (f : Frame) (fault : Fault) : Progress :=
  { result := some fault, state := f }

/-- Goes on where no fault has stopped the pass. After a fault nothing more happens, and the frame
stays as the fault has left it. -/
def andThen (p : Progress) (next : Frame → Progress) : Progress :=
  match p.result with
  | some _ => p
  | none =>
    let q := next p.state
    { q with events := p.events ++ q.events }

end Progress

namespace Operand

/-- The value of an operand. A literal has one always, and a slot has one if it is within the
store. -/
def value (store : SlotStore) : Operand → Except Fault Value
  | .slot s => store.get s
  | .literal v => .ok v

/-- Puts the values of operands behind the inputs in order, up to one whose slot is not there. -/
def loadAll : List Operand → Frame → Progress
  | [], f => .start f
  | o :: rest, f =>
    match o.value f.store with
    | .error fault => .stop f fault
    | .ok v => loadAll rest (f.pushInput v)

end Operand

/-- Invokes an operation on the inputs. The values that it gives are put behind the outputs. -/
def Operation.apply (operation : Operation) (f : Frame) : Progress :=
  let invoked := operation f.scratch.inputs f.context
  { result := none
    state :=
      { f with
        context := invoked.state
        scratch := ⟨f.scratch.inputs, f.scratch.outputs ++ invoked.result⟩ }
    events := invoked.events }

namespace Destination

/-- Coerces a value to the destination's type and writes it. The coercion comes first, and is
counted also if there is no slot to write to. -/
def write (d : Destination) (v : Value) (f : Frame) : Progress :=
  let converted := Context.convert v d.type f.context
  match f.store.set d.slot converted.result with
  | .ok store =>
    { result := none, state := { f with store, context := converted.state },
      events := converted.events }
  | .error fault =>
    { result := some fault, state := { f with context := converted.state },
      events := converted.events }

/-- Writes values to destinations in order, as far as there are both. Values without a destination
are not even coerced, and destinations without a value keep what they have. -/
def writeAll : List Destination → List Value → Frame → Progress
  | d :: ds, v :: vs, f => (d.write v f).andThen (writeAll ds vs)
  | _, _, f => .start f

end Destination

/-- Executes one step. Operands go to the inputs, and what the operation makes of them goes to the
outputs, from where it is written. An operation that the table does not have is found before
anything else is done. -/
def Step.execute (table : OpTable) (s : Step) (f : Frame) : Progress :=
  match table.resolve s.op with
  | .error fault => .stop f fault
  | .ok operation =>
    (Operand.loadAll s.operands f.clearInputs).andThen fun f =>
      (operation.apply f.clearOutputs).andThen fun f =>
        Destination.writeAll s.results f.scratch.outputs f

/-- Executes steps in order, up to the first one that meets a fault. -/
def Step.executeAll (table : OpTable) : List Step → Frame → Progress
  | [], f => .start f
  | s :: rest, f => (s.execute table f).andThen (executeAll table rest)

/-- The frame in which a pass of a plan starts. A store with as many slots as the plan asks for is
emptied, and another one gives way to one of that size. What is in the scratch lists stays. -/
def Plan.prepare (p : Plan) (f : Frame) : Frame :=
  { f with
    store := if f.store.size ≠ p.slotCount then .ofSize p.slotCount else f.store.reset
    context := f.context.beginPass }

/-- One pass of a plan: the slots are emptied, the count of the pass starts, and then the steps are
executed. The sink is not read here. -/
def Plan.pass (table : OpTable) (p : Plan) (f : Frame) : Progress :=
  Step.executeAll table p.steps (p.prepare f)

end NodeGraph
