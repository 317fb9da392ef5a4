import NodeGraph.Graph.Basic

/-!
# Drafting a graph

A draft lays out the built-in nodes with their standard ports and numbers nodes and parameters from
one, so that a graph can be assembled without an editor. Each drafting step returns what it made
together with the draft that follows.

A node can also be added under a number of its own, which may be in use already. The numbers that a
draft assigns afterwards are above it, so that as long as 32 bits are enough, only nodes that were
added in this way can share a number.
-/

namespace NodeGraph

/-- A graph under construction, with the numbers that the next node and parameter get. The counts
are numbers without a bound, and are cut to 32 bits when a number is assigned. -/
structure Draft where
  graph : Graph := {}
  nextNode : Nat := 1
  nextParameter : Nat := 1

namespace Draft

/-- Takes the number of the next node. The count goes on right away, before there is a node that has
the number. -/
def freshNode (d : Draft) : NodeId × Draft :=
  (⟨d.nextNode.toUInt32⟩, { d with nextNode := d.nextNode + 1 })

/-- Adds a node under its own number. Later nodes are numbered above it. -/
def node (d : Draft) (n : Node) : NodeId × Draft :=
  (n.id,
    { d with
      graph := { d.graph with nodes := d.graph.nodes ++ [n] }
      nextNode := max d.nextNode (n.id.value.toNat + 1) })

/-- Adds the node that is made for the next number. The count goes on when the number is taken, and
is then raised above the number once more, as it is for any node. -/
def numbered (d : Draft) (make : NodeId → Node) : NodeId × Draft :=
  let (id, d) := d.freshNode
  d.node (make id)

/-- Adds the sink, with an input for each of the three results. That there is one already is not
looked at. -/
def sink (d : Draft) : NodeId × Draft :=
  d.numbered fun id =>
    { id
      op := .sink
      ports :=
        [.input 0 "Float" .scalar, .input 1 "Vector2" .vector2, .input 2 "Vector3" .vector3] }

/-- Adds a source of random vectors, which has one output and no input. -/
def randomVector3 (d : Draft) : NodeId × Draft :=
  d.numbered fun id => { id, op := .randomVector3, ports := [.output 0 "XYZ" .vector3] }

/-- Adds a constant of the value's type. An absent value makes a scalar constant, which keeps the
absent value as its literal. -/
def constant (d : Draft) (v : Value) : NodeId × Draft :=
  let type := v.type?.getD .scalar
  d.numbered fun id =>
    { id
      op := .constant type
      ports := [.output 0 "Value" type]
      literals := [v] }

/-- Adds a scalar operation with two inputs and a literal for each. The literals are used until
wires arrive. -/
def binary (d : Draft) (op : OpCode) (a b : Float32) : NodeId × Draft :=
  d.numbered fun id =>
    { id
      op
      ports := [.input 0 "A" .scalar, .input 1 "B" .scalar, .output 2 "Result" .scalar]
      literals := [.scalar a, .scalar b] }

/-- Declares a parameter. Parameters have a count of their own, so that a node and a parameter may
have the same number. -/
def parameter (d : Draft) (name : String) (value : Value) : ParameterId × Draft :=
  let id : ParameterId := ⟨d.nextParameter.toUInt32⟩
  (id,
    { d with
      graph := { d.graph with parameters := d.graph.parameters ++ [⟨id, name, value⟩] }
      nextParameter := d.nextParameter + 1 })

/-- Adds a node that reads a parameter. Its type is that of the parameter's present value, and
scalar where there is none. -/
def parameterRead (d : Draft) (parameter : ParameterId) : NodeId × Draft :=
  let type := ((d.graph.parameter? parameter).bind (·.value.type?)).getD .scalar
  d.numbered fun id =>
    { id
      op := .parameter
      ports := [.output 0 "Value" type]
      parameter := some parameter }

/-- Adds a wire. Nothing is checked about its ends. -/
def connect (d : Draft) (source target : PortRef) : Draft :=
  { d with graph := { d.graph with wires := d.graph.wires ++ [⟨source, target⟩] } }

end Draft

end NodeGraph
