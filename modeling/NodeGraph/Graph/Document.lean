import NodeGraph.Graph.Basic
import NodeGraph.Json.Number
import NodeGraph.Json.Parser
import NodeGraph.Json.Printer
import NodeGraph.Json.Record

/-!
# Graph documents

The JSON form of values and graphs. Each type has a writer `toJson` and a reader `ofJson?`. A graph
document is written with `Graph.render` and read with `Graph.parse?`. A number that is not finite is
written as `null`, which no reader takes for a number.

Readers are more liberal than writers. Fields that have a standard value can be left out, keys that
are not known are ignored, and a record can stand as an array of its fields. What a reader makes of
a document does not depend on these liberties.
-/

namespace NodeGraph

open Json

/-- Scalars are positional from `0.000001` to below `10 ^ 13`, always with a fraction there. Beyond
that there is an exponent. -/
def Json.scalarLayout : Decimal.Layout where
  tie := .toEven
  positional e := -6 ≤ e && e ≤ 12
  pointZero := true

/-- The tree of a scalar: its shortest decimal, or `null` for what has none. -/
def Json.ofScalar (x : Float32) : Json :=
  match Json.scalarLayout.numeral? .binary32 x.toModel.unpack with
  | some n => .number n
  | none => .null

/-- A scalar of a document. An integer is taken for one, and a number beyond the range of scalars
becomes an infinity. -/
def Json.scalar? (j : Json) : Option Float32 :=
  j.number?.map Number.scalar

namespace ValueType

/-- The tree of a type, which is its name. -/
def toJson (ty : ValueType) : Json :=
  .str ty.name

/-- The type of the given name. Names are compared as they are, capitals included. -/
def ofName? (name : String) : Option ValueType :=
  all.find? (·.name = name)

/-- The type of a document, by its name. -/
def ofJson? (j : Json) : Option ValueType :=
  j.choice?.bind ofName?

end ValueType

namespace Value

/-- The tree of a value: its data under the name of its type, or the name of the absent value alone.
Vectors are arrays of their components. -/
def toJson : Value → Json
  | .absent => .str "None"
  | .bool b => .obj [("Bool", .bool b)]
  | .integer i => .obj [("Integer", .int i.toInt)]
  | .scalar s => .obj [("Scalar", .ofScalar s)]
  | .vector2 v => .obj [("Vector2", .array [.ofScalar v.x, .ofScalar v.y])]
  | .vector3 v => .obj [("Vector3", .array [.ofScalar v.x, .ofScalar v.y, .ofScalar v.z])]
  | .vector4 v =>
    .obj [("Vector4", .array [.ofScalar v.x, .ofScalar v.y, .ofScalar v.z, .ofScalar v.w])]

/-- An integer of 32 bits with a sign. A number with a point or an exponent is none, even if it is
whole. -/
def integerOfJson? (j : Json) : Option Value := do
  let n ← j.int?
  if -2147483648 ≤ n ∧ n ≤ 2147483647 then some (.integer (.ofInt n)) else none

/-- The data of a value of a type, with `scalar?` reading its scalars. A vector has exactly as many
components as its type says. -/
def payloadOfJson? (scalar? : Json → Option Float32) : ValueType → Json → Option Value
  | .bool, j => j.bool?.map .bool
  | .integer, j => integerOfJson? j
  | .scalar, j => (scalar? j).map .scalar
  | .vector2, .array [x, y] => return .vector2 ⟨← scalar? x, ← scalar? y⟩
  | .vector3, .array [x, y, z] => return .vector3 ⟨← scalar? x, ← scalar? y, ← scalar? z⟩
  | .vector4, .array [x, y, z, w] =>
    return .vector4 ⟨← scalar? x, ← scalar? y, ← scalar? z, ← scalar? w⟩
  | _, _ => none

/-- A value, with `scalar?` reading its scalars. An object has to have exactly one member, so that
it is clear which type is meant. -/
def ofJsonWith? (scalar? : Json → Option Float32) : Json → Option Value
  | .string (some "None") | .object [(some "None", .null)] => some .absent
  | .object [(some name, j)] => (ValueType.ofName? name).bind (payloadOfJson? scalar? · j)
  | _ => none

/-- The value of a document. The reader of scalars is the one for graph documents. -/
def ofJson? (j : Json) : Option Value :=
  ofJsonWith? Json.scalar? j

end Value

namespace NodeId

/-- The tree of a node's number. -/
def toJson (id : NodeId) : Json :=
  .int id.value.toNat

/-- The number of a node in a document, which has to fit in 32 bits. -/
def ofJson? (j : Json) : Option NodeId :=
  (j.nat? UInt32.size).map fun n => ⟨n.toUInt32⟩

end NodeId

namespace ParameterId

/-- The tree of a parameter's number. -/
def toJson (id : ParameterId) : Json :=
  .int id.value.toNat

/-- The number of a parameter in a document, which has to fit in 32 bits. -/
def ofJson? (j : Json) : Option ParameterId :=
  (j.nat? UInt32.size).map fun n => ⟨n.toUInt32⟩

end ParameterId

/-- The tree of a number of 16 bits, such as a port's. -/
def Json.ofWord (n : UInt16) : Json :=
  .int n.toNat

/-- A number of 16 bits of a document. A larger one is an error and not cut. -/
def Json.word? (j : Json) : Option UInt16 :=
  (j.nat? UInt16.size).map Nat.toUInt16

namespace OpCode

/-- The tree of an operation, with its family and its kind. -/
def toJson (op : OpCode) : Json :=
  .obj [("family", .ofWord op.family), ("kind", .ofWord op.kind)]

/-- The operation of a document. Neither part can be left out, and no table is asked whether it has
the operation. -/
def ofJson? (j : Json) : Option OpCode := do
  match ← j.fields? ["family", "kind"] with
  | [family, kind] => return ⟨← required? word? family, ← required? word? kind⟩
  | _ => none

end OpCode

namespace PortRef

/-- The tree of one end of a wire. -/
def toJson (ref : PortRef) : Json :=
  .obj [("node", ref.node.toJson), ("port", .ofWord ref.port)]

/-- One end of a wire in a document. Neither number can be left out. -/
def ofJson? (j : Json) : Option PortRef := do
  match ← j.fields? ["node", "port"] with
  | [node, port] => return ⟨← required? NodeId.ofJson? node, ← required? word? port⟩
  | _ => none

end PortRef

namespace Direction

/-- The direction's name in a document. -/
def name : Direction → String
  | .input => "Input"
  | .output => "Output"

/-- The tree of a direction, which is its name. -/
def toJson (d : Direction) : Json :=
  .str d.name

/-- The direction of a document, by its name. -/
def ofJson? (j : Json) : Option Direction := do
  match ← j.choice? with
  | "Input" => some .input
  | "Output" => some .output
  | _ => none

end Direction

namespace Port

/-- The tree of a port, with all its fields. -/
def toJson (p : Port) : Json :=
  .obj [("id", .ofWord p.id), ("name", .str p.name), ("direction", p.direction.toJson),
    ("ty", p.type.toJson)]

/-- The port of a document. Its name can be left out, and is then empty. -/
def ofJson? (j : Json) : Option Port := do
  match ← j.fields? ["id", "name", "direction", "ty"] with
  | [id, name, direction, type] =>
    return {
      id := ← required? word? id
      name := ← optional? "" Json.text? name
      direction := ← required? Direction.ofJson? direction
      type := ← required? ValueType.ofJson? type }
  | _ => none

end Port

namespace Node

/-- The tree of a node, with all its fields. The parameter is `null` where there is none. -/
def toJson (n : Node) : Json :=
  .obj [("id", n.id.toJson), ("op", n.op.toJson), ("ports", .array (n.ports.map Port.toJson)),
    ("values", .array (n.literals.map Value.toJson)),
    ("parameter", (n.parameter.map ParameterId.toJson).getD .null)]

/-- The node of a document. Ports, literals and the parameter can be left out, and the parameter can
be `null`. -/
def ofJson? (j : Json) : Option Node := do
  match ← j.fields? ["id", "op", "ports", "values", "parameter"] with
  | [id, op, ports, literals, parameter] =>
    return {
      id := ← required? NodeId.ofJson? id
      op := ← required? OpCode.ofJson? op
      ports := ← optional? [] (list? Port.ofJson?) ports
      literals := ← optional? [] (list? Value.ofJson?) literals
      parameter := ← nullable? ParameterId.ofJson? parameter }
  | _ => none

end Node

namespace Wire

/-- The tree of a wire, with its two ends. -/
def toJson (w : Wire) : Json :=
  .obj [("from", w.source.toJson), ("to", w.target.toJson)]

/-- The wire of a document. Neither end can be left out. -/
def ofJson? (j : Json) : Option Wire := do
  match ← j.fields? ["from", "to"] with
  | [source, target] =>
    return ⟨← required? PortRef.ofJson? source, ← required? PortRef.ofJson? target⟩
  | _ => none

end Wire

namespace Parameter

/-- The tree of a parameter, with all its fields. -/
def toJson (p : Parameter) : Json :=
  .obj [("id", p.id.toJson), ("name", .str p.name), ("value", p.value.toJson)]

/-- The parameter of a document. No field can be left out, not even the name. -/
def ofJson? (j : Json) : Option Parameter := do
  match ← j.fields? ["id", "name", "value"] with
  | [id, name, value] =>
    return ⟨← required? ParameterId.ofJson? id, ← required? Json.text? name,
      ← required? Value.ofJson? value⟩
  | _ => none

end Parameter

namespace Graph

/-- The tree of a graph, with all its parts, in the order in which the graph has them. -/
def toJson (g : Graph) : Json :=
  .obj [("nodes", .array (g.nodes.map Node.toJson)),
    ("connections", .array (g.wires.map Wire.toJson)),
    ("parameters", .array (g.parameters.map Parameter.toJson))]

/-- The graph of a document. Every part can be left out, and is then empty. -/
def ofJson? (j : Json) : Option Graph := do
  match ← j.fields? ["nodes", "connections", "parameters"] with
  | [nodes, wires, parameters] =>
    return {
      nodes := ← optional? [] (list? Node.ofJson?) nodes
      wires := ← optional? [] (list? Wire.ofJson?) wires
      parameters := ← optional? [] (list? Parameter.ofJson?) parameters }
  | _ => none

/-- The document of a graph, with one entry a line. It is the same text for the same graph. -/
def render (g : Graph) : String :=
  g.toJson.pretty

/-- The graph of a document, if the text is one. Nothing is said about where it fails to be one. -/
def parse? (text : String) : Option Graph :=
  (Json.parse? text).bind ofJson?

end Graph

end NodeGraph
