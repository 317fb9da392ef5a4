import NodeGraph.Plan.Basic
import NodeGraph.Plan.Order
import NodeGraph.Plan.SlotPool

/-!
# Planning a graph

`Graph.plan` checks a graph and turns the nodes that its sink depends on into steps. The checks come
in a fixed order, and the first defect found is the answer: node numbers, wires one by one, inputs
with several wires, the sink, cycles, and then the operation and the parameter of each step's node.

The checks up to the sink look at the whole graph. The search for an order and the making of steps
look at the live nodes only, so that an unknown operation does no harm where the sink does not
depend on it. Steps are made in order with a pool of slots, from which a port gets its slot when it
is first met.
-/

namespace NodeGraph

namespace Graph

/-- Finds the first node whose number is in `seen` or stands earlier in the list. The second of two
nodes with the same number is the one that is found. -/
def checkIds (seen : List NodeId) : List Node → Except Defect Unit
  | [] => .ok ()
  | n :: rest => if n.id ∈ seen then .error (.duplicateNode n.id) else checkIds (n.id :: seen) rest

/-- Checks that a wire leads from an output port to an input port. The nodes and ports are the first
ones with their numbers. -/
def checkWire (g : Graph) (w : Wire) : Except Defect Unit := do
  let some producer := g.node? w.source.node
    | .error (.badWire w (.unknownNode w.source.node))
  let some consumer := g.node? w.target.node
    | .error (.badWire w (.unknownNode w.target.node))
  let some source := producer.port? w.source.port
    | .error (.badWire w (.missingPort w.source))
  let some target := consumer.port? w.target.port
    | .error (.badWire w (.missingPort w.target))
  if !source.isOutput then .error (.badWire w .sourceNotOutput)
  else if !target.isInput then .error (.badWire w .targetNotInput)
  else .ok ()

/-- The number of wires that arrive at a port. -/
def fanIn (g : Graph) (target : PortRef) : Nat :=
  (g.wires.filter (·.target = target)).length

/-- Checks that no other wire arrives where this one does. The defect says how many there are in
all. -/
def checkFanIn (g : Graph) (w : Wire) : Except Defect Unit :=
  if 1 < g.fanIn w.target then .error (.crowdedInput w.target (g.fanIn w.target)) else .ok ()

/-- The one sink of a graph. With several, the defect names the first two. -/
def sink (g : Graph) : Except Defect Node :=
  match g.nodes.filter (·.op.isSink) with
  | [] => .error .noSink
  | [n] => .ok n
  | n :: m :: _ => .error (.severalSinks n.id m.id)

/-- The parameter that a parameter read takes; other nodes take none. Only the first parameter with
the number counts. -/
def parameterOf (g : Graph) (n : Node) : Except Defect (Option Parameter) :=
  if n.op.isParameter then
    match n.parameter.bind g.parameter? with
    | some p => .ok (some p)
    | none => .error (.unknownParameter n.id n.parameter)
  else .ok none

/-- The operand of an input port: the slot of the port whose wire arrives, or else the literal at
the port's position. -/
def operand (g : Graph) (n : Node) (p : Port) (position : Nat) : StateM SlotPool Operand :=
  match g.source? (n.ref p) with
  | some source => return .slot (← SlotPool.claim source)
  | none => return .literal (n.literal position)

/-- The operands of a node. A parameter read has the parameter's value, and a constant has its first
literal, whatever their ports are. -/
def operands (g : Graph) (n : Node) (parameter : Option Parameter) :
    StateM SlotPool (List Operand) :=
  match parameter with
  | some p => return [.literal p.value]
  | none =>
    if n.op.isConstant then return [.literal (n.literal 0)]
    else n.inputs.zipIdx.mapM fun (p, position) => g.operand n p position

end Graph

/-- The destinations of a node's results: for the sink a slot of its own for every input port, and
for other nodes the slots of their output ports. -/
def Node.destinations (n : Node) : StateM SlotPool (List Destination) :=
  if n.op.isSink then n.inputs.mapM fun p => return ⟨← SlotPool.fresh, p.type⟩
  else n.outputs.mapM fun p => return ⟨← SlotPool.claim (n.ref p), p.type⟩

/-- The step of a node. Its operands claim their slots before its results do, which decides the
order in which slots are numbered. -/
def Graph.step (g : Graph) (n : Node) (parameter : Option Parameter) : StateM SlotPool Step := do
  let operands ← g.operands n parameter
  let results ← n.destinations
  return { node := n.id, op := n.op, operands, results, parameter := parameter.map (·.id) }

/-- A plan under construction: the pool of slots, and the steps and parameters so far. -/
structure Assembly where
  pool : SlotPool := {}
  steps : List Step := []
  parameters : List Parameter := []

namespace Assembly

/-- The parameters read so far and another one, if it is not among them. Parameters are told apart
by their numbers, and the first one with a number stays. -/
def catalog (known : List Parameter) : Option Parameter → List Parameter
  | none => known
  | some p => if known.any (·.id = p.id) then known else known ++ [p]

/-- Adds the step of a node. The operation is checked before the parameter, and a node with a defect
stops the planning. -/
def add (isKnown : OpCode → Bool) (g : Graph) (a : Assembly) (n : Node) :
    Except Defect Assembly := do
  if !isKnown n.op then .error (.unknownOperation n.id n.op)
  else
    let parameter ← g.parameterOf n
    let (step, pool) := g.step n parameter a.pool
    return {
      pool
      steps := a.steps ++ [step]
      parameters := catalog a.parameters parameter }

end Assembly

/-- The plan of a graph, where `isKnown` tells the operations that can be invoked. The order is a
list of numbers, and each stands for the one node that has it. -/
def Graph.plan (isKnown : OpCode → Bool) (g : Graph) : Except Defect Plan := do
  checkIds [] g.nodes
  g.wires.forM g.checkWire
  g.wires.forM g.checkFanIn
  let sink ← g.sink
  let order ← g.dependencyOrder sink.id
  let a ← (order.filterMap g.node?).foldlM (Assembly.add isKnown g) {}
  return {
    steps := a.steps
    parameters := a.parameters
    slotCount := a.pool.slotCount
    nodeCount := g.nodes.length }

end NodeGraph
