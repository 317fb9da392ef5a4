import NodeGraph.Value

/-!
# Identifiers

Nodes, parameters and operations are named by numbers that the editor assigns and the document
keeps. A port is named within its node, and by `PortRef` within the graph. A `Slot` names a place of
a plan and stands in no document.

An operation's number has two parts, and the family alone decides how the operands of a node are
found: constants take a literal, parameter reads take a parameter, and all others take what arrives
at their inputs.
-/

namespace NodeGraph

/-- A node's stable number. It stays with the node when others are added or removed, and wires refer
to it. -/
structure NodeId where
  value : UInt32
  deriving DecidableEq, Ord, Repr, Inhabited

/-- A parameter's stable number. Nodes refer to parameters by it and never by name. -/
structure ParameterId where
  value : UInt32
  deriving DecidableEq, Ord, Repr, Inhabited

/-- A port's number within its node. Ports of different nodes may have the same number. -/
abbrev PortId := UInt16

/-- A port of a node, which is one end of a wire. There need not be such a port, or such a node. -/
structure PortRef where
  node : NodeId
  port : PortId
  deriving DecidableEq, Ord, Repr, Inhabited

/-- An operation's number: a family of related operations, and a kind within it. A table of
operations says what it does. -/
structure OpCode where
  family : UInt16
  kind : UInt16
  deriving DecidableEq, Ord, Repr, Inhabited

/-- A place where a plan keeps one value. The slots of a plan are numbered from zero without
gaps. -/
structure Slot where
  index : Nat
  deriving DecidableEq, Ord, Repr, Inhabited

/-- The number of a node as messages and defects show it. -/
def NodeId.text (id : NodeId) : String :=
  "NodeId(" ++ toString id.value ++ ")"

/-- The number of a parameter as messages and defects show it. -/
def ParameterId.text (id : ParameterId) : String :=
  "ParameterId(" ++ toString id.value ++ ")"

/-- One end of a wire as defects show it, with the numbers of its node and its port. -/
def PortRef.text (ref : PortRef) : String :=
  "PortRef(node=" ++ toString ref.node.value ++ ", port=" ++ toString ref.port ++ ")"

/-- The slot in a listing of a plan, as a number after a dollar sign. -/
def Slot.text (slot : Slot) : String :=
  "$" ++ toString slot.index

/-- The slot with what it is, where a number alone could be taken for something else. -/
def Slot.fullText (slot : Slot) : String :=
  "SlotId(" ++ toString slot.index ++ ")"

namespace OpCode

/-- The operation in messages: family, colon, kind. -/
def text (op : OpCode) : String :=
  toString op.family ++ ":" ++ toString op.kind

/-- The operation with what it is, where the two numbers alone could be taken for something else. -/
def fullText (op : OpCode) : String :=
  "OpSelector(" ++ op.text ++ ")"

/-- The sink of a graph, of which there is exactly one. What it gives is kept for the readout and
goes to no port. -/
def sink : OpCode := ⟨1, 1⟩

/-- Three random components. It is the only built-in operation that draws from the random stream. -/
def randomVector3 : OpCode := ⟨1, 2⟩

/-- The constant of a type. It takes the first literal of its node, whatever ports the node has. -/
def constant : ValueType → OpCode
  | .bool => ⟨2, 1⟩
  | .integer => ⟨2, 2⟩
  | .scalar => ⟨2, 3⟩
  | .vector2 => ⟨2, 4⟩
  | .vector3 => ⟨2, 5⟩
  | .vector4 => ⟨2, 6⟩

/-- The sum of two scalars. The operations of this family all take two scalars. -/
def add : OpCode := ⟨3, 1⟩

/-- The difference of two scalars. -/
def subtract : OpCode := ⟨3, 2⟩

/-- The product of two scalars. -/
def multiply : OpCode := ⟨3, 3⟩

/-- The remainder of two scalars, with the sign of the first. -/
def modulo : OpCode := ⟨3, 4⟩

/-- The quotient of two scalars. To divide by zero is no fault. -/
def divide : OpCode := ⟨3, 5⟩

/-- The current value of a parameter. Which parameter that is stands in the node. -/
def parameter : OpCode := ⟨6, 1⟩

/-- Whether the operation is the sink. No other operation of its family is. -/
def isSink (op : OpCode) : Bool :=
  op = sink

/-- Whether the operation belongs to the constants, which take their first literal as input. This is
a matter of the family, so that it holds of kinds that no table has. -/
def isConstant (op : OpCode) : Bool :=
  op.family = 2

/-- Whether the operation belongs to the parameter reads, which take a parameter as input. This is a
matter of the family, as it is for constants. -/
def isParameter (op : OpCode) : Bool :=
  op.family = 6

end OpCode

end NodeGraph
