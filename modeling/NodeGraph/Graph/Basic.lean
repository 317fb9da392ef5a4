import NodeGraph.Ident

/-!
# Graphs

A graph is a snapshot handed over by the editor: nodes with typed ports, wires from output ports to
input ports, and named parameters. Nothing here requires a graph to make sense; `Graph.plan` finds
what is wrong with one. In particular numbers may occur twice, and then a lookup finds what stands
first.

Equality comes in two forms. As data, two graphs are equal if they are the same, down to the bits of
a scalar. The functions named `equal` compare scalars as numbers instead.
-/

namespace NodeGraph

/-- Whether a port takes a value or gives one. -/
inductive Direction where
  | input
  | output
  deriving DecidableEq, Repr

/-- A typed port of a node. The name is for people, and nothing depends on it. -/
structure Port where
  id : PortId
  name : String
  direction : Direction
  type : ValueType
  deriving DecidableEq, Repr

namespace Port

/-- An input port. Without a wire it takes a literal of its node. -/
def input (id : PortId) (name : String) (type : ValueType) : Port :=
  ⟨id, name, .input, type⟩

/-- An output port. Any number of wires may start there. -/
def output (id : PortId) (name : String) (type : ValueType) : Port :=
  ⟨id, name, .output, type⟩

/-- Whether the port takes a value. -/
def isInput (p : Port) : Bool :=
  p.direction = .input

/-- Whether the port gives a value. -/
def isOutput (p : Port) : Bool :=
  p.direction = .output

end Port

/-- A node of a graph, which invokes an operation with what arrives at its inputs. -/
structure Node where
  id : NodeId
  /-- The operation that the node invokes. The ports need not be those that the operation
  expects. -/
  op : OpCode
  ports : List Port := []
  /-- Literals, matched by position to the input ports and used where no wire arrives. A constant
  keeps its value in the first place. -/
  literals : List Value := []
  /-- The parameter that a parameter read takes. Other nodes do not look at it. -/
  parameter : Option ParameterId := none
  deriving DecidableEq

namespace Node

/-- The input ports in declaration order, which is the order of an operation's operands. Output
ports in between do not count. -/
def inputs (n : Node) : List Port :=
  n.ports.filter Port.isInput

/-- The output ports in declaration order, which is the order of the values that an operation
gives. -/
def outputs (n : Node) : List Port :=
  n.ports.filter Port.isOutput

/-- The first port with the given number, in either direction. -/
def port? (n : Node) (id : PortId) : Option Port :=
  n.ports.find? (·.id = id)

/-- The literal of the input port at a position, absent where none was given. -/
def literal (n : Node) (position : Nat) : Value :=
  n.literals.getD position .absent

/-- A port of this node, seen from the graph. It names the port by its number, so ports with the
same number have the same name. -/
def ref (n : Node) (p : Port) : PortRef :=
  ⟨n.id, p.id⟩

/-- Equality with literals compared as numbers: the zeros are equal, and what is no number equals
nothing. -/
def equal (m n : Node) : Bool :=
  m.id = n.id && m.op = n.op && m.ports = n.ports &&
    m.literals.length = n.literals.length &&
    (m.literals.zip n.literals).all (fun (v, w) => v.equal w) &&
    m.parameter = n.parameter

end Node

/-- A wire from an output port to an input port. Its ends are numbers, and it is for planning to
find that they name such ports. -/
structure Wire where
  source : PortRef
  target : PortRef
  deriving DecidableEq, Repr

/-- A named value that can be changed from outside. Nodes take the value that it has when the graph
is planned. -/
structure Parameter where
  id : ParameterId
  name : String
  value : Value
  deriving DecidableEq

/-- Equality with the value compared as a number. -/
def Parameter.equal (p q : Parameter) : Bool :=
  p.id = q.id && p.name = q.name && p.value.equal q.value

/-- A graph as authored. The order of nodes, wires and parameters is kept in documents, and decides
between things with the same number. -/
structure Graph where
  nodes : List Node := []
  wires : List Wire := []
  parameters : List Parameter := []
  deriving DecidableEq, Inhabited

namespace Graph

/-- The first node with the given number. -/
def node? (g : Graph) (id : NodeId) : Option Node :=
  g.nodes.find? (·.id = id)

/-- The first parameter with the given number. -/
def parameter? (g : Graph) (id : ParameterId) : Option Parameter :=
  g.parameters.find? (·.id = id)

/-- The output port whose wire arrives at an input port. If several wires arrive there, the first
one counts, but such a graph has no plan. -/
def source? (g : Graph) (target : PortRef) : Option PortRef :=
  (g.wires.find? (·.target = target)).map (·.source)

/-- Gives the first parameter of the name a new value; the list is unchanged if there is none.
Others of the same name keep their values. -/
def assign (name : String) (value : Value) : List Parameter → List Parameter
  | [] => []
  | p :: rest =>
    if p.name = name then { p with value } :: rest else p :: assign name value rest

/-- The graph with a parameter's value changed, if a parameter has that name. The new value may be
of another type. -/
def setParameter? (g : Graph) (name : String) (value : Value) : Option Graph :=
  if g.parameters.any (·.name = name) then
    some { g with parameters := assign name value g.parameters }
  else none

/-- Equality with values compared as numbers. Nodes and parameters have to be in the same order. -/
def equal (g h : Graph) : Bool :=
  g.nodes.length = h.nodes.length &&
    (g.nodes.zip h.nodes).all (fun (m, n) => m.equal n) &&
    g.wires = h.wires &&
    g.parameters.length = h.parameters.length &&
    (g.parameters.zip h.parameters).all (fun (p, q) => p.equal q)

end Graph

end NodeGraph
