import NodeGraph.Graph.Basic

/-!
# What can be wrong with a graph

A graph that cannot be planned has a `Defect`. Its message names the nodes and ports involved. A
graph with several defects is reported for the one that is found first, and `Graph.plan` says in
which order they are looked for.
-/

namespace NodeGraph

/-- What can be wrong with a wire. The source is looked at before the target, nodes before ports,
and ports before their directions. -/
inductive WireFlaw where
  | unknownNode (id : NodeId)
  | missingPort (ref : PortRef)
  | sourceNotOutput
  | targetNotInput
  deriving DecidableEq, Repr

/-- The flaw in a message, after the wire itself. -/
def WireFlaw.text : WireFlaw → String
  | .unknownNode id => "unknown node " ++ id.text
  | .missingPort ref => "node " ++ ref.node.text ++ " has no port " ++ toString ref.port
  | .sourceNotOutput => "source is not an output port"
  | .targetNotInput => "target is not an input port"

/-- Why a graph cannot be planned. Each constructor holds what its message says. -/
inductive Defect where
  /-- Two nodes have the same number. -/
  | duplicateNode (id : NodeId)
  /-- A wire does not lead from an output port to an input port. -/
  | badWire (wire : Wire) (flaw : WireFlaw)
  /-- Several wires arrive at one input port. -/
  | crowdedInput (input : PortRef) (count : Nat)
  | noSink
  | severalSinks (first second : NodeId)
  /-- A node that the sink depends on depends on itself. -/
  | cycle (node : NodeId)
  | unknownOperation (node : NodeId) (op : OpCode)
  /-- A parameter read names no parameter of the graph, or none at all. -/
  | unknownParameter (node : NodeId) (parameter : Option ParameterId)
  deriving DecidableEq, Repr

namespace Defect

/-- A parameter, or that there is none, in a message. -/
def parameterText : Option ParameterId → String
  | none => "None"
  | some id => "Some(" ++ id.text ++ ")"

/-- The defect in words, as reports and complaints show it. -/
def message : Defect → String
  | .duplicateNode id => "Duplicate node id " ++ id.text
  | .badWire wire flaw =>
    "Invalid connection " ++ wire.source.text ++ " -> " ++ wire.target.text ++ ": " ++ flaw.text
  | .crowdedInput input count =>
    "Input " ++ input.text ++ " has " ++ toString count ++ " incoming connections"
  | .noSink => "Graph has no main node"
  | .severalSinks first second =>
    "Graph has more than one main node (" ++ first.text ++ " and " ++ second.text ++ ")"
  | .cycle node => "Cycle detected through node " ++ node.text
  | .unknownOperation node op => "Node " ++ node.text ++ " uses unregistered operation " ++ op.text
  | .unknownParameter node parameter =>
    "Node " ++ node.text ++ " reads unknown parameter " ++ parameterText parameter

end Defect

end NodeGraph
