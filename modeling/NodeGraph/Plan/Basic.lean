import NodeGraph.Graph.Basic

/-!
# Plans

A plan is a graph made ready to run: a list of steps in dependency order, the last one being the
sink's. A step gathers its operands from slots and literals, invokes its operation, and writes the
results to slots.

A plan is data, and any plan can be installed and run. That a plan makes sense follows if it comes
from `Graph.plan`, and otherwise a pass may stop with a fault.
-/

namespace NodeGraph

/-- Where a step takes one of its inputs from. Which it is has been decided when the graph was
planned. -/
inductive Operand where
  /-- A slot that an earlier step writes. -/
  | slot (slot : Slot)
  /-- The literal of an input at which no wire arrives, or the value of a constant or a
  parameter. -/
  | literal (value : Value)
  deriving DecidableEq

namespace Operand

/-- The slot of an operand that has one. Literals are not looked up. -/
def slot? : Operand → Option Slot
  | .slot s => some s
  | .literal _ => none

/-- The operand in a listing: its slot, or the literal itself. -/
def text : Operand → String
  | .slot s => s.text
  | .literal v => v.text

end Operand

/-- Where a step puts one of its results, and the type that the result is coerced to. It is the type
of the port, whatever the operation gives. -/
structure Destination where
  slot : Slot
  type : ValueType
  deriving DecidableEq, Repr

/-- The destination in a listing, a slot and a type. -/
def Destination.text (d : Destination) : String :=
  d.slot.text ++ ":" ++ d.type.label

/-- One step of a plan, which stands for one node of the graph. -/
structure Step where
  /-- The node that the step was made from. -/
  node : NodeId
  op : OpCode
  operands : List Operand
  results : List Destination
  /-- The parameter of a parameter read. The value has already become an operand, so that running
  the step does not look at it. -/
  parameter : Option ParameterId
  deriving DecidableEq

namespace Step

/-- The slots that the step reads, in the order of its operands. -/
def reads (s : Step) : List Slot :=
  s.operands.filterMap Operand.slot?

/-- The slots that the step writes, in the order of its results. -/
def writes (s : Step) : List Slot :=
  s.results.map (·.slot)

/-- The slot with the greatest index that the step reads or writes, if there is any. -/
def greatestSlot? (s : Step) : Option Slot :=
  ((s.reads ++ s.writes).map (·.index)).max?.map Slot.mk

/-- The step in a listing, on one line. A step without results has no arrow. -/
def text (s : Step) : String :=
  s.node.text ++ " " ++ s.op.text ++ "(" ++ ", ".intercalate (s.operands.map Operand.text) ++ ")" ++
    (if s.results.isEmpty then ""
      else " -> " ++ " ".intercalate (s.results.map Destination.text))

end Step

/-- What planning a graph came to, in numbers, for reports and listings. -/
structure PlanStats where
  /-- The nodes of the graph. -/
  total : Nat
  /-- The nodes that became steps. -/
  active : Nat
  /-- The nodes that the sink does not depend on. -/
  disconnected : Nat
  slots : Nat
  parameters : Nat
  deriving DecidableEq, Repr

/-- A graph made ready to run. Nothing of the graph is needed any more to run it. -/
structure Plan where
  /-- The steps in dependency order. -/
  steps : List Step
  /-- The parameters that the steps read, each once, in the order of their first reading. -/
  parameters : List Parameter
  /-- The number of slots that the steps need. -/
  slotCount : Nat
  /-- The number of nodes of the graph, live or not. -/
  nodeCount : Nat
  deriving DecidableEq

namespace Plan

/-- The step of the sink, which is the last one. A plan without steps has none. -/
def sink? (p : Plan) : Option Step :=
  p.steps.getLast?

/-- The plan in numbers. Nodes that are not live have no steps, and are those that are not
connected. -/
def stats (p : Plan) : PlanStats where
  total := p.nodeCount
  active := p.steps.length
  disconnected := p.nodeCount - p.steps.length
  slots := p.slotCount
  parameters := p.parameters.length

end Plan

end NodeGraph
