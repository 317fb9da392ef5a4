import Mathlib.Logic.Function.Basic
import NodeGraph.Pass.Readout
import NodeGraph.Proofs.Order.Postorder
import NodeGraph.Proofs.Pass.Steps
import NodeGraph.Proofs.Plan.Layout

/-!
# Evaluating a graph directly

What a graph means is said here without plans, steps and slots. `Graph.evaluate` starts at the sink,
evaluates each node after the nodes that its inputs are wired to, and remembers the values that it
has (`Memo`), so that no node is evaluated twice. It is written in terms of the graph as a document
has it, with its nodes, ports, wires and literals, and of the conversions of values. It starts the
count of a pass, counts fallbacks and looks things up by itself, so that what a pass does can be
held against it.

The second half restates the parts of the evaluation in the words that passes and plans are made of.
Where the search for an order succeeds, the recursion comes to the same as evaluating the nodes in
that order (`Graph.evaluateAll_eq_forM`).
-/

namespace NodeGraph

/-- Computations may be put together in any grouping, so that parts of an evaluation can be taken
together. -/
instance {σ : Type} : LawfulMonad (Logged σ) :=
  .mk' (Logged σ)
    (fun x => by
      funext s
      show ({ x s with events := (x s).events ++ [] } : Outcome σ _) = x s
      rw [List.append_nil])
    (fun _ _ => rfl)
    (fun x f k => by
      funext s
      simp only [bind, Logged.bind, List.append_assoc])

/-- A computation after another one depends on the outcome of the first alone. -/
theorem Logged.bind_apply_congr {σ α β : Type} {x x' : Logged σ α} {f f' : α → Logged σ β} {s : σ}
    (hx : x s = x' s) (hf : f (x' s).result (x' s).state = f' (x' s).result (x' s).state) :
    (x >>= f) s = (x' >>= f') s := by
  simp only [bind, Logged.bind, hx, hf]

/-- What is known at some time of an evaluation, and the context that operations see then. -/
structure Memo where
  /-- The nodes that have been evaluated, in the order in which they were. -/
  evaluated : List NodeId := []
  /-- The values at output ports, absent where there are none. -/
  values : PortRef → Value := fun _ => .absent
  /-- The values that the sink has given, none before it has been evaluated. -/
  results : List Value := []
  context : Context

namespace Memo

/-- Values given at ports in order, as far as there are both. Where a port is there twice, the last
value counts. -/
def give (values : PortRef → Value) : List PortRef → List Value → PortRef → Value
  | port :: ports, v :: vs => give (Function.update values port v) ports vs
  | _, _ => values

/-- Notes that a node has been evaluated, behind the others. -/
def note (id : NodeId) (m : Memo) : Memo :=
  { m with evaluated := m.evaluated ++ [id] }

/-- What has been found or else a zero. Where a zero stands in, both counts of fallbacks go up by
one, and it is reported which type was to be had of which. -/
def orZero {α : Type} (zero : α) (source : Option ValueType) (target : ValueType)
    (found : Option α) : Logged Context α := fun c =>
  match found with
  | some a => { result := a, state := c }
  | none =>
    { result := zero
      state := ⟨c.stream, ⟨c.tally.total + 1, c.tally.lastPass + 1⟩⟩
      events := [.fallback source target] }

/-- Values converted to types in turn, as far as there are both, with zeros where there is no
conversion. -/
def settle : List ValueType → List Value → Logged Context (List Value)
  | ty :: tys, v :: vs => do
    let w ← orZero ty.zero v.type? ty (v.convert? ty)
    let ws ← settle tys vs
    return w :: ws
  | _, _ => return []

/-- A result of the sink as data of a type, zero where it has no conversion. A result that the sink
has not given is absent. -/
def readAs (ty : ValueType) (position : Nat) (m : Memo) : Logged Context ty.Payload :=
  let v := m.results.getD position .absent
  orZero ty.zeroPayload v.type? ty (v.as? ty)

/-- The readout of the values that the sink has given: a scalar, a vector of two and a vector of
three components. -/
def readout (m : Memo) : Logged Context Readout := do
  let scalar ← m.readAs .scalar 0
  let vector2 ← m.readAs .vector2 1
  let vector3 ← m.readAs .vector3 2
  return { scalar, vector2, vector3 }

end Memo

/-- The operation of a number. Without one, nothing is given; an evaluation has no faults. -/
def OpTable.invoke (t : OpTable) (op : OpCode) : Operation :=
  match t.entries.find? (·.1 = op) with
  | some e => e.2.operation
  | none => fun _ => return []

namespace Graph

/-- The values that a node's operation takes. A parameter read, in the family 6, takes the value of
its parameter and nothing else, and a constant, in the family 2, takes its first literal. Any other
node takes a value for each port that takes one, in the order in which the ports are declared: the
one at the port where the wire comes from, or without a wire the literal at this position. -/
def inputValues (g : Graph) (values : PortRef → Value) (n : Node) : List Value :=
  if n.op.family = 6 then
    let parameter? := n.parameter.bind fun id => g.parameters.find? (·.id = id)
    [(parameter?.map (·.value)).getD .absent]
  else if n.op.family = 2 then [n.literals.getD 0 .absent]
  else (n.ports.filter (·.direction = .input)).zipIdx.map fun entry =>
    match g.wires.find? (·.target = ⟨n.id, entry.1.id⟩) with
    | some w => values w.source
    | none => n.literals.getD entry.2 .absent

/-- Invokes the operation of a node. The values that it gives are converted to the types of the
node's output ports in turn and kept there. Those of the sink are converted to the types of its
input ports and are the results. -/
def invoke (t : OpTable) (g : Graph) (n : Node) : Logged Memo Unit := fun m =>
  let invoked := t.invoke n.op (g.inputValues m.values n) m.context
  if n.op = ⟨1, 1⟩ then
    let inputs := n.ports.filter (·.direction = .input)
    let given := Memo.settle (inputs.map (·.type)) invoked.result invoked.state
    { result := ()
      state := { m with results := given.result, context := given.state }
      events := invoked.events ++ given.events }
  else
    let outputs := n.ports.filter (·.direction = .output)
    let given := Memo.settle (outputs.map (·.type)) invoked.result invoked.state
    { result := ()
      state :=
        { m with
          values := Memo.give m.values (outputs.map fun port => ⟨n.id, port.id⟩) given.result
          context := given.state }
      events := invoked.events ++ given.events }

/-- Evaluates a node whose inputs have their values, and notes it. A number that no node has is only
noted. -/
def evaluateNode (t : OpTable) (g : Graph) (id : NodeId) : Logged Memo Unit := do
  match g.nodes.find? (·.id = id) with
  | some n => g.invoke t n
  | none => pure ()
  Logged.update (Memo.note id)

/-- Evaluates nodes in turn, each after the nodes that it takes its inputs from, and none that has
been evaluated. The path holds the nodes that wait for the present ones. It keeps the recursion from
going round in a cycle, and is not met without one. -/
def evaluateAll (t : OpTable) (g : Graph) (path : List NodeId) : List NodeId → Logged Memo Unit
  | [] => return ()
  | id :: ids => fun m =>
    if _ : id ∈ path ∨ id ∈ m.evaluated then evaluateAll t g path ids m
    else
      (do
        evaluateAll t g (id :: path) (g.suppliers id)
        g.evaluateNode t id
        evaluateAll t g path ids : Logged Memo Unit) m
termination_by ids => (g.offPath path, ids.length)
decreasing_by
  · exact Prod.Lex.right _ (by simp)
  · exact g.offPath_suppliers_lt (not_or.1 ‹_›).1 ids
  · exact Prod.Lex.right _ (by simp)

/-- The readout of a graph. The fallbacks of a pass are counted from nothing, the sink is evaluated,
and its results are read. Without a sink all is zero. -/
def evaluate (t : OpTable) (g : Graph) : Logged Context Readout := fun c =>
  let fresh : Context := ⟨c.stream, ⟨c.tally.total, 0⟩⟩
  match g.nodes.find? (·.op = ⟨1, 1⟩) with
  | none => { result := .zero, state := fresh }
  | some sink =>
    let evaluated := g.evaluateAll t [] [sink.id] { context := fresh }
    let read := evaluated.state.readout evaluated.state.context
    { read with events := evaluated.events ++ read.events }

end Graph

/-! ## The evaluation in the words of passes and plans -/

namespace Memo

/-- A conversion with a zero in place of what has none is a coercion to the type. -/
theorem orZero_convert? (v : Value) (ty : ValueType) :
    orZero ty.zero v.type? ty (v.convert? ty) = Context.convert v ty := by
  unfold Context.convert
  cases v.convert? ty with
  | some w => rfl
  | none => rfl

/-- Converted data with a zero in place of what has none is a coercion to the data of the type. -/
theorem orZero_as? (v : Value) (ty : ValueType) :
    orZero ty.zeroPayload v.type? ty (v.as? ty) = Context.coerce ty v := by
  unfold Context.coerce
  cases v.as? ty with
  | some payload => rfl
  | none => rfl

/-- Values are converted in turn as a step coerces them. -/
theorem settle_eq_convertAll (types : List ValueType) (vs : List Value) :
    settle types vs = Context.convertAll types vs := by
  induction types generalizing vs with
  | nil => rfl
  | cons ty types ih =>
    cases vs with
    | nil => rfl
    | cons v vs => rw [settle, Context.convertAll, orZero_convert?, ih]

/-- A result of the sink is read by coercing it. -/
theorem readAs_eq (ty : ValueType) (position : Nat) (m : Memo) :
    m.readAs ty position = Context.coerce ty (m.results.getD position .absent) :=
  orZero_as? _ ty

/-- The results are read as the slots of the sink are. -/
theorem readout_eq (m : Memo) :
    m.readout = do
      let scalar ← Context.coerce .scalar (m.results.getD 0 .absent)
      let vector2 ← Context.coerce .vector2 (m.results.getD 1 .absent)
      let vector3 ← Context.coerce .vector3 (m.results.getD 2 .absent)
      return { scalar, vector2, vector3 } := by
  simp only [readout, readAs_eq]

end Memo

namespace OpTable

variable {t : OpTable} {op : OpCode}

/-- An operation that the table has is the one that is invoked. -/
theorem invoke_of_find? {e : OpEntry} (h : t.find? op = some e) : t.invoke op = e.operation := by
  obtain ⟨entry, hentry, rfl⟩ := Option.map_eq_some_iff.1 h
  rw [invoke, hentry]

/-- Where the table has no operation, nothing is given and nothing happens. -/
theorem invoke_of_find?_none (h : t.find? op = none) : t.invoke op = fun _ => return [] := by
  rw [invoke, Option.map_eq_none_iff.1 h]

end OpTable

namespace Graph

variable {t : OpTable} {g : Graph}

/-- The values that a node takes come from where the operands of its step come from. -/
theorem inputValues_eq (g : Graph) (values : PortRef → Value) (n : Node) :
    g.inputValues values n =
      if n.op.isParameter then [((n.parameter.bind g.parameter?).map Parameter.value).getD .absent]
      else if n.op.isConstant then [n.literal 0]
      else n.inputs.zipIdx.map fun entry =>
        ((g.source? (n.ref entry.1)).map values).getD (n.literal entry.2) := by
  simp only [inputValues, OpCode.isParameter, OpCode.isConstant, decide_eq_true_eq]
  split
  · rfl
  · split
    · rfl
    · refine List.map_congr_left fun entry _ => ?_
      show _ = (((g.wires.find? (·.target = n.ref entry.1)).map (·.source)).map values).getD _
      rw [show n.ref entry.1 = ⟨n.id, entry.1.id⟩ from rfl]
      cases g.wires.find? (·.target = ⟨n.id, entry.1.id⟩) with
      | none => rfl
      | some w => rfl

/-- A node is invoked as its step is executed: its values are coerced to the types of the ports for
which the step has destinations. -/
theorem invoke_eq (t : OpTable) (g : Graph) (n : Node) (m : Memo) :
    let invoked := t.invoke n.op (g.inputValues m.values n) m.context
    let given := Context.convertAll (n.resultPorts.map (·.type)) invoked.result invoked.state
    g.invoke t n m =
      { result := ()
        state :=
          if n.op.isSink then { m with results := given.result, context := given.state }
          else
            { m with
              values := Memo.give m.values (n.outputs.map n.ref) given.result
              context := given.state }
        events := invoked.events ++ given.events } := by
  intro invoked given
  unfold invoke
  cases hsink : n.op.isSink with
  | true =>
    have hop : n.op = ⟨1, 1⟩ := of_decide_eq_true hsink
    rw [if_pos hop]
    simp only [given, Node.resultPorts, hsink, if_true, Memo.settle_eq_convertAll]
    rfl
  | false =>
    have hop : n.op ≠ ⟨1, 1⟩ := of_decide_eq_false hsink
    rw [if_neg hop]
    simp only [given, Node.resultPorts, hsink, Bool.false_eq_true, if_false,
      Memo.settle_eq_convertAll]
    rfl

/-- Evaluating a node of the graph invokes its operation, and then notes the node. -/
theorem evaluateNode_of_node? {id : NodeId} {n : Node} (h : g.node? id = some n) (m : Memo) :
    g.evaluateNode t id m =
      { result := ()
        state := (g.invoke t n m).state.note id
        events := (g.invoke t n m).events } := by
  have hfind : g.nodes.find? (·.id = id) = some n := h
  simp [evaluateNode, hfind, Logged.update, bind, Logged.bind]

/-- What is not a node of the graph is only noted. -/
theorem evaluateNode_of_node?_none {id : NodeId} (h : g.node? id = none) (m : Memo) :
    g.evaluateNode t id m = { result := (), state := m.note id } := by
  have hfind : g.nodes.find? (·.id = id) = none := h
  simp [evaluateNode, hfind, Logged.update]

/-- Evaluating a node notes that it has been evaluated, whatever its operation does. -/
theorem evaluated_evaluateNode (t : OpTable) (g : Graph) (id : NodeId) (m : Memo) :
    (g.evaluateNode t id m).state.evaluated = m.evaluated ++ [id] := by
  cases h : g.node? id with
  | none => rw [evaluateNode_of_node?_none h, Memo.note]
  | some n =>
    rw [evaluateNode_of_node? h, invoke_eq]
    dsimp only [Memo.note]
    split <;> rfl

/-- Evaluating nodes in turn notes them in turn. -/
theorem evaluated_forM (t : OpTable) (g : Graph) (ids : List NodeId) (m : Memo) :
    (ids.forM (g.evaluateNode t) m).state.evaluated = m.evaluated ++ ids := by
  induction ids generalizing m with
  | nil => exact (List.append_nil _).symm
  | cons id ids ih =>
    show (ids.forM (g.evaluateNode t) (g.evaluateNode t id m).state).state.evaluated = _
    rw [ih, evaluated_evaluateNode, List.append_assoc, List.singleton_append]

/-- A node that is waited for or has been evaluated is passed over. -/
theorem evaluateAll_cons_of_mem {path ids : List NodeId} {id : NodeId} {m : Memo}
    (h : id ∈ path ∨ id ∈ m.evaluated) :
    g.evaluateAll t path (id :: ids) m = g.evaluateAll t path ids m := by
  rw [evaluateAll]
  exact dif_pos h

/-- Any other node is evaluated between those that it takes its inputs from and the nodes after
it. -/
theorem evaluateAll_cons_of_not_mem {path ids : List NodeId} {id : NodeId} {m : Memo}
    (h : ¬(id ∈ path ∨ id ∈ m.evaluated)) :
    g.evaluateAll t path (id :: ids) m =
      (do
        g.evaluateAll t (id :: path) (g.producers id)
        g.evaluateNode t id
        g.evaluateAll t path ids : Logged Memo Unit) m := by
  rw [producers_eq_suppliers, evaluateAll]
  exact dif_neg h

/-- Where the search succeeds, the recursion evaluates the nodes that the search lists, in the order
in which it lists them. What has been evaluated before is what the search had listed before. -/
theorem evaluateAll_eq_forM {path ids order order' : List NodeId} {m : Memo}
    (h : g.postorder path ids order = .ok order') (hm : m.evaluated = order) :
    ∃ listed, order' = order ++ listed ∧
      g.evaluateAll t path ids m = listed.forM (g.evaluateNode t) m := by
  fun_induction postorder g path ids order generalizing order' m with
  | case1 path order =>
    cases h
    exact ⟨[], (List.append_nil order).symm, by rw [evaluateAll]; rfl⟩
  | case2 path id ids order hv ih =>
    obtain ⟨listed, horder, heval⟩ := ih h hm
    exact ⟨listed, horder, (evaluateAll_cons_of_mem (hm ▸ hv)).trans heval⟩
  | case3 => cases h
  | case4 => cases h
  | case5 path id ids order hv hfind order₁ hl ihl ih =>
    obtain ⟨listed₁, rfl, heval₁⟩ := ihl hl hm
    have hnoted : (g.evaluateNode t id (listed₁.forM (g.evaluateNode t) m).state).state.evaluated =
        order ++ listed₁ ++ [id] := by
      rw [evaluated_evaluateNode, evaluated_forM, hm]
    obtain ⟨listed₂, rfl, heval₂⟩ := ih h hnoted
    refine ⟨listed₁ ++ id :: listed₂, by simp, ?_⟩
    calc g.evaluateAll t path (id :: ids) m
        = (do
            g.evaluateAll t (id :: path) (g.producers id)
            g.evaluateNode t id
            g.evaluateAll t path ids : Logged Memo Unit) m :=
          evaluateAll_cons_of_not_mem (hm ▸ hv)
      _ = (do
            listed₁.forM (g.evaluateNode t)
            g.evaluateNode t id
            listed₂.forM (g.evaluateNode t) : Logged Memo Unit) m :=
          Logged.bind_apply_congr heval₁ (Logged.bind_apply_congr rfl heval₂)
      _ = (listed₁ ++ id :: listed₂).forM (g.evaluateNode t) m :=
          (congrFun List.forM_append m).symm

end Graph

end NodeGraph
