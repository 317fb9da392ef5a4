import Mathlib.Data.Set.Function
import NodeGraph.Proofs.Plan.Verdicts
import NodeGraph.Proofs.Plan.Wiring

/-!
# Plans up to the numbers of nodes

Planning takes the number of a node for nothing else than a name: it asks whether two numbers are
the same, and no more. Say that part of a graph is found in another graph under other numbers
(`Graph.Matches`), and that no wire leads into the part from outside. Then the search goes through
the part in the same order in both (`Graph.Matches.dependencyOrder_eq`), and the steps take the same
slots (`Graph.Matches.planOn_eq`).

Both isomorphic graphs and the live part of a graph are of this kind. In the one case the part is
the whole graph and the numbers change, in the other the numbers stay and the part does not.
-/

namespace NodeGraph

open SlotPool

/-- Where a member stands does not change under a function that tells it from the others. So ports
under other numbers own the same slots. -/
theorem idxOf_map_of_injOn {α β : Type} [DecidableEq α] [DecidableEq β] {f : α → β} {s : Set α}
    {l : List α} {a : α} (hf : Set.InjOn f s) (hl : ∀ b ∈ l, b ∈ s) (ha : a ∈ s) :
    (l.map f).idxOf (f a) = l.idxOf a := by
  induction l with
  | nil => rfl
  | cons b l ih =>
    obtain ⟨hb, hl⟩ := List.forall_mem_cons.1 hl
    by_cases h : b = a
    · rw [h, List.map_cons, List.idxOf_cons_self, List.idxOf_cons_self]
    · have hne : f b ≠ f a := fun heq => h (hf hb ha heq)
      rw [List.map_cons, List.idxOf_cons_ne _ hne, List.idxOf_cons_ne _ h, ih hl]

/-- What is among others is so under a function that tells it from them, and only then. -/
theorem mem_map_iff_of_injOn {α β : Type} {f : α → β} {s : Set α} {l : List α} {a : α}
    (hf : Set.InjOn f s) (hl : ∀ b ∈ l, b ∈ s) (ha : a ∈ s) : f a ∈ l.map f ↔ a ∈ l := by
  refine ⟨fun h => ?_, fun h => List.mem_map_of_mem h⟩
  obtain ⟨b, hb, heq⟩ := List.mem_map.1 h
  exact hf (hl b hb) ha heq ▸ hb

section Rename

variable (f : NodeId → NodeId)

/-- A port whose node has another number. The number of the port itself stays. -/
def PortRef.rename (port : PortRef) : PortRef :=
  { port with node := f port.node }

/-- A node under another number. Its operation, its ports and the parameter that it reads stay. -/
def Node.rename (n : Node) : Node :=
  { n with id := f n.id }

/-- A wire between nodes under other numbers. -/
def Wire.rename (w : Wire) : Wire where
  source := w.source.rename f
  target := w.target.rename f

/-- A step of a node under another number. Slots do not depend on the numbers of nodes. -/
def Step.rename (s : Step) : Step :=
  { s with node := f s.node }

/-- A plan for nodes under other numbers. -/
def Plan.rename (p : Plan) : Plan :=
  { p with steps := p.steps.map (Step.rename f) }

/-- A flaw of a wire between nodes under other numbers. -/
def WireFlaw.rename : WireFlaw → WireFlaw
  | .unknownNode id => .unknownNode (f id)
  | .missingPort ref => .missingPort (ref.rename f)
  | .sourceNotOutput => .sourceNotOutput
  | .targetNotInput => .targetNotInput

/-- A defect of a graph whose nodes have other numbers. -/
def Defect.rename : Defect → Defect
  | .duplicateNode id => .duplicateNode (f id)
  | .badWire wire flaw => .badWire (wire.rename f) (flaw.rename f)
  | .crowdedInput input count => .crowdedInput (input.rename f) count
  | .noSink => .noSink
  | .severalSinks first second => .severalSinks (f first) (f second)
  | .cycle node => .cycle (f node)
  | .unknownOperation node op => .unknownOperation (f node) op
  | .unknownParameter node parameter => .unknownParameter (f node) parameter

/-- The numbers of nodes are not part of what a plan comes to in numbers. -/
theorem Plan.stats_rename (p : Plan) : (p.rename f).stats = p.stats := by
  simp [Plan.stats, Plan.rename]

/-- A node gives values at the same ports under another number. -/
theorem Node.targets_rename (n : Node) :
    (n.rename f).targets = n.targets.map (PortRef.rename f) := by
  unfold Node.targets
  split
  · rw [if_pos ‹_›]
    rfl
  · rw [if_neg ‹_›, List.map_map]
    rfl

end Rename

/-- The nodes of a plan under other numbers, with the sink at their end. -/
theorem map_rename_concat (f : NodeId → NodeId) (init : List Node) (sink : Node) :
    init.map (Node.rename f) ++ [sink.rename f] = (init ++ [sink]).map (Node.rename f) := by
  rw [List.map_append, List.map_singleton]

/-- Nodes that keep their numbers stay as they are. -/
@[simp] theorem map_rename_id (nodes : List Node) : nodes.map (Node.rename id) = nodes :=
  List.map_id nodes

/-- A plan for nodes that keep their numbers stays as it is. -/
@[simp] theorem plan_rename_id (p : Plan) : p.rename id = p := by
  have hsteps : p.steps.map (Step.rename id) = p.steps := List.map_id p.steps
  rw [Plan.rename, hsteps]

/-- Renamed ports differ if the nodes are told apart. -/
theorem PortRef.rename_injOn {f : NodeId → NodeId} {part : Set NodeId} (hf : Set.InjOn f part) :
    Set.InjOn (PortRef.rename f) {port | port.node ∈ part} := by
  rintro ⟨u, i⟩ hu ⟨v, j⟩ hv heq
  obtain ⟨hnode, hport⟩ := PortRef.mk.inj heq
  exact congrArg₂ PortRef.mk (hf hu hv hnode) hport

namespace Graph

/-- The node that a number stands for has it. -/
theorem id_of_node? {g : Graph} {id : NodeId} {n : Node} (h : g.node? id = some n) : n.id = id := by
  simpa using List.find?_some h

/-- Part of a graph is found in another one under other numbers: nodes, wires into them and the
parameters that they read. -/
structure Matches (f : NodeId → NodeId) (part : Set NodeId) (g g' : Graph) : Prop where
  /-- The other numbers tell the nodes of the part apart. -/
  inj : Set.InjOn f part
  node : ∀ id ∈ part, g'.node? (f id) = (g.node? id).map (Node.rename f)
  source : ∀ target : PortRef, target.node ∈ part →
    g'.source? (target.rename f) = (g.source? target).map (PortRef.rename f)
  /-- What arrives at a node of the part comes from one. -/
  closed : ∀ target source : PortRef, target.node ∈ part → g.source? target = some source →
    source.node ∈ part
  parameter : ∀ n ∈ g.nodes, n.id ∈ part → g'.parameterRead (n.rename f) = g.parameterRead n

namespace Matches

variable {f : NodeId → NodeId} {part : Set NodeId} {g g' : Graph} {isKnown : OpCode → Bool}
  {n : Node} {nodes : List Node}

section Search

variable {path ids order : List NodeId}

/-- A node of the part has the same producers, in the same order. -/
theorem producers_eq (h : Matches f part g g') {id : NodeId} (hid : id ∈ part) :
    g'.producers (f id) = (g.producers id).map f := by
  rw [producers, producers, h.node id hid]
  cases hn : g.node? id with
  | none => rfl
  | some n =>
    have hpart : n.id ∈ part := by rwa [id_of_node? hn]
    show List.filterMap _ n.inputs = _
    rw [List.map_filterMap]
    refine List.filterMap_congr fun p _ => ?_
    show (g'.source? ((n.ref p).rename f)).map _ = _
    rw [h.source (n.ref p) hpart, Option.map_map, Option.map_map]
    rfl

/-- The producers of a node of the part belong to the part. -/
theorem producers_subset (h : Matches f part g g') {id : NodeId} (hid : id ∈ part) :
    ∀ x ∈ g.producers id, x ∈ part := by
  intro x hx
  unfold producers at hx
  cases hn : g.node? id with
  | none =>
    rw [hn] at hx
    cases hx
  | some n =>
    rw [hn] at hx
    have hpart : n.id ∈ part := by rwa [id_of_node? hn]
    obtain ⟨p, -, hp⟩ := List.mem_filterMap.1 hx
    obtain ⟨source, hsource, rfl⟩ := Option.map_eq_some_iff.1 hp
    exact h.closed (n.ref p) source hpart hsource

/-- What a node of the part depends on belongs to the part, so that the search does not leave it. -/
theorem mem_of_reflTransGen (h : Matches f part g g') {u v : NodeId} (hu : u ∈ part)
    (huv : Relation.ReflTransGen g.Draws u v) : v ∈ part := by
  induction huv with
  | refl => exact hu
  | tail _ hdraws ih => exact h.producers_subset ih _ hdraws

/-- The search from nodes of the part lists nodes of the part. -/
theorem postorder_subset (h : Matches f part g g') {order' : List NodeId}
    (hok : g.postorder path ids order = .ok order') (hids : ∀ x ∈ ids, x ∈ part)
    (horder : ∀ x ∈ order, x ∈ part) : ∀ x ∈ order', x ∈ part := by
  intro x hx
  rcases postorder_reaches hok x hx with hx | ⟨id, hid, hreach⟩
  · exact horder x hx
  · exact h.mem_of_reflTransGen (hids id hid) hreach

/-- The first producer on a path is the same one, so that the same cycle is found. -/
theorem find?_producers_eq (h : Matches f part g g') {id : NodeId} (hid : id ∈ part)
    (hpath : ∀ x ∈ path, x ∈ part) :
    (g'.producers (f id)).find? (· ∈ f id :: path.map f) =
      ((g.producers id).find? (· ∈ id :: path)).map f := by
  rw [h.producers_eq hid, List.find?_map, ← List.head?_filter, ← List.head?_filter]
  refine congrArg (fun l => l.head?.map f) (List.filter_congr fun x hx => ?_)
  rw [Function.comp_apply, ← List.map_cons, decide_eq_decide]
  exact mem_map_iff_of_injOn h.inj (List.forall_mem_cons.2 ⟨hid, hpath⟩)
    (h.producers_subset hid x hx)

/-- A node of the part is visited in both searches or in neither. -/
theorem visited_iff (h : Matches f part g g') {id : NodeId} (hid : id ∈ part)
    (hpath : ∀ x ∈ path, x ∈ part) (horder : ∀ x ∈ order, x ∈ part) :
    f id ∈ path.map f ∨ f id ∈ order.map f ↔ id ∈ path ∨ id ∈ order := by
  rw [mem_map_iff_of_injOn h.inj hpath hid, mem_map_iff_of_injOn h.inj horder hid]

/-- The search goes through the part in the same order, and meets the same cycle if there is one. By
induction along the recursion. -/
theorem postorder_eq (h : Matches f part g g') (hpath : ∀ x ∈ path, x ∈ part)
    (hids : ∀ x ∈ ids, x ∈ part) (horder : ∀ x ∈ order, x ∈ part) :
    g'.postorder (path.map f) (ids.map f) (order.map f) =
      ((g.postorder path ids order).map (List.map f)).mapError (Defect.rename f) := by
  -- Along the recursion all numbers stay in the part, where `f` tells them apart.
  fun_induction postorder g path ids order with
  | case1 path order =>
    rw [List.map_nil, postorder]
    rfl
  | case2 path id ids order hv ih =>
    obtain ⟨hid, hids⟩ := List.forall_mem_cons.1 hids
    rw [List.map_cons, postorder, dif_pos ((h.visited_iff hid hpath horder).2 hv),
      ih hpath hids horder]
  | case3 path id ids order hv producer hfind =>
    obtain ⟨hid, -⟩ := List.forall_mem_cons.1 hids
    rw [List.map_cons, postorder, dif_neg (mt (h.visited_iff hid hpath horder).1 hv),
      h.find?_producers_eq hid hpath, hfind]
    rfl
  | case4 path id ids order hv hfind defect hl ihl =>
    obtain ⟨hid, -⟩ := List.forall_mem_cons.1 hids
    have hinner := ihl (List.forall_mem_cons.2 ⟨hid, hpath⟩) (h.producers_subset hid) horder
    rw [hl, List.map_cons, ← h.producers_eq hid] at hinner
    rw [List.map_cons, postorder_visit (mt (h.visited_iff hid hpath horder).1 hv)
      (by rw [h.find?_producers_eq hid hpath, hfind]; rfl), hinner]
    rfl
  | case5 path id ids order hv hfind listed hl ihl ih =>
    obtain ⟨hid, hids⟩ := List.forall_mem_cons.1 hids
    have hinner := ihl (List.forall_mem_cons.2 ⟨hid, hpath⟩) (h.producers_subset hid) horder
    rw [hl, List.map_cons, ← h.producers_eq hid] at hinner
    have hlisted : ∀ x ∈ listed ++ [id], x ∈ part := by
      intro x hx
      rcases List.mem_append.1 hx with hx | hx
      · exact h.postorder_subset hl (h.producers_subset hid) horder x hx
      · exact List.mem_singleton.1 hx ▸ hid
    rw [List.map_cons, postorder_visit (mt (h.visited_iff hid hpath horder).1 hv)
      (by rw [h.find?_producers_eq hid hpath, hfind]; rfl), hinner, ← ih hpath hids hlisted,
      List.map_append]
    rfl

/-- What a node of the part depends on is listed in the same order. -/
theorem dependencyOrder_eq (h : Matches f part g g') {id : NodeId} (hid : id ∈ part) :
    g'.dependencyOrder (f id) =
      ((g.dependencyOrder id).map (List.map f)).mapError (Defect.rename f) := by
  rw [dependencyOrder_eq_postorder, dependencyOrder_eq_postorder]
  have hnone : ∀ x ∈ ([] : List NodeId), x ∈ part := List.forall_mem_nil _
  exact h.postorder_eq hnone (List.forall_mem_singleton.2 hid) hnone

end Search

/-- The operands of a node of the part come from the same ports. -/
theorem sources_eq (h : Matches f part g g') (hn : n ∈ g.nodes) (hpart : n.id ∈ part) :
    g'.sources (n.rename f) = (g.sources n).map (PortRef.rename f) := by
  rw [sources, sources, h.parameter n hn hpart]
  cases g.parameterRead n with
  | some p => rfl
  | none =>
    by_cases hconstant : n.op.isConstant
    · simp [hconstant, Node.rename]
    · simp only [hconstant, Node.rename, Bool.false_eq_true, if_false, List.map_flatMap]
      refine List.flatMap_congr fun pi _ => ?_
      show (g'.source? ((n.ref pi.1).rename f)).toList = (g.source? (n.ref pi.1)).toList.map _
      rw [h.source (n.ref pi.1) hpart, Option.toList_map]

/-- The operands of a node of the part come from the part. -/
theorem node_of_mem_sources (h : Matches f part g g') (hpart : n.id ∈ part) {port : PortRef}
    (hport : port ∈ g.sources n) : port.node ∈ part := by
  obtain ⟨p, -, hsource⟩ := exists_input_of_mem_sources hport
  exact h.closed (n.ref p) port hpart hsource

/-- The ports that own slots after nodes of the part belong to the part. -/
theorem node_of_mem_portsOf (h : Matches f part g g') (hpart : ∀ n ∈ nodes, n.id ∈ part)
    {port : PortRef} (hport : port ∈ g.portsOf nodes) : port.node ∈ part := by
  obtain ⟨n, hn, hport | hport⟩ := mem_portsOf.1 hport
  · exact h.node_of_mem_sources (hpart n hn) hport
  · exact node_of_mem_targets hport ▸ hpart n hn

/-- Nodes of the part claim slots for the same ports in the same order. -/
theorem portsOf_eq (h : Matches f part g g') (hnodes : ∀ n ∈ nodes, n ∈ g.nodes)
    (hpart : ∀ n ∈ nodes, n.id ∈ part) :
    g'.portsOf (nodes.map (Node.rename f)) = (g.portsOf nodes).map (PortRef.rename f) := by
  have hclaims : ∀ port ∈ nodes.flatMap fun n => g.sources n ++ n.targets, port.node ∈ part :=
    fun port hport => h.node_of_mem_portsOf hpart (mem_enroll.2 (.inr hport))
  have hinj := PortRef.rename_injOn h.inj
  rw [portsOf, portsOf, map_enroll fun a ha b hb => hinj (hclaims a ha) (hclaims b hb)]
  refine congrArg (enroll []) ?_
  rw [List.map_flatMap, List.flatMap_map]
  refine List.flatMap_congr fun n hn => ?_
  rw [List.map_append, h.sources_eq (hnodes n hn) (hpart n hn), Node.targets_rename]

/-- A port of the part owns the same slot under its other number. -/
theorem slotIn_eq (h : Matches f part g g') {ports : List PortRef} {port : PortRef}
    (hports : ∀ port ∈ ports, port.node ∈ part) (hport : port.node ∈ part) :
    slotIn (ports.map (PortRef.rename f)) (port.rename f) = slotIn ports port :=
  congrArg Slot.mk (idxOf_map_of_injOn (PortRef.rename_injOn h.inj) hports hport)

/-- The operand of an input port of the part is the same, slot or literal. -/
theorem operandIn_eq (h : Matches f part g g') {ports : List PortRef}
    (hports : ∀ port ∈ ports, port.node ∈ part) (hpart : n.id ∈ part) (p : Port) (position : Nat) :
    g'.operandIn (slotIn (ports.map (PortRef.rename f))) (n.rename f) p position =
      g.operandIn (slotIn ports) n p position := by
  have hrenamed : g'.source? ((n.rename f).ref p) =
      (g.source? (n.ref p)).map (PortRef.rename f) := h.source (n.ref p) hpart
  rw [operandIn, operandIn, hrenamed]
  cases hsource : g.source? (n.ref p) with
  | none => rfl
  | some source => exact congrArg Operand.slot (h.slotIn_eq hports (h.closed _ _ hpart hsource))

/-- The operands of a node of the part are the same. -/
theorem operandsIn_eq (h : Matches f part g g') {ports : List PortRef}
    (hports : ∀ port ∈ ports, port.node ∈ part) (hn : n ∈ g.nodes) (hpart : n.id ∈ part) :
    g'.operandsIn (slotIn (ports.map (PortRef.rename f))) (n.rename f) =
      g.operandsIn (slotIn ports) n := by
  rw [operandsIn, operandsIn, h.parameter n hn hpart]
  cases g.parameterRead n with
  | some p => rfl
  | none =>
    by_cases hconstant : n.op.isConstant
    · simp [hconstant, Node.rename, Node.literal]
    · simp only [hconstant, Node.rename, Bool.false_eq_true, if_false]
      exact List.map_congr_left fun pi _ => h.operandIn_eq hports hpart pi.1 pi.2

/-- The results of a node of the part have the same destinations. -/
theorem destinationsIn_eq (h : Matches f part g g') {ports : List PortRef}
    (hports : ∀ port ∈ ports, port.node ∈ part) (hpart : n.id ∈ part) :
    (n.rename f).destinationsIn (ports.map (PortRef.rename f)) = n.destinationsIn ports := by
  unfold Node.destinationsIn
  by_cases hsink : n.op.isSink
  · simp [hsink, Node.rename, Node.inputs]
  · simp only [hsink, Node.rename, Bool.false_eq_true, if_false]
    refine List.map_congr_left fun p _ => ?_
    have hslot : slotIn (ports.map (PortRef.rename f)) ((n.ref p).rename f) =
        slotIn ports (n.ref p) := h.slotIn_eq hports hpart
    exact congrArg (Destination.mk · p.type) hslot

/-- The step of a node of the part is the same, but for the number of the node. -/
theorem stepIn_eq (h : Matches f part g g') {ports : List PortRef}
    (hports : ∀ port ∈ ports, port.node ∈ part) (hn : n ∈ g.nodes) (hpart : n.id ∈ part) :
    g'.stepIn (ports.map (PortRef.rename f)) (n.rename f) = (g.stepIn ports n).rename f := by
  rw [stepIn, stepIn, h.operandsIn_eq hports hn hpart, h.destinationsIn_eq hports hpart,
    h.parameter n hn hpart]
  rfl

/-- The plan of nodes of the part is the same, apart from the number of all nodes. -/
theorem planOn_eq (h : Matches f part g g') {init : List Node} {sink : Node}
    (hnodes : ∀ n ∈ init ++ [sink], n ∈ g.nodes) (hpart : ∀ n ∈ init ++ [sink], n.id ∈ part) :
    g'.planOn (init.map (Node.rename f)) (sink.rename f) =
      { (g.planOn init sink).rename f with nodeCount := g'.nodes.length } := by
  have hports : ∀ port ∈ g.portsOf (init ++ [sink]), port.node ∈ part :=
    fun _ => h.node_of_mem_portsOf hpart
  rw [planOn, map_rename_concat, h.portsOf_eq hnodes hpart, planOn, Plan.rename, Plan.mk.injEq]
  refine ⟨?_, ?_, ?_, rfl⟩
  · rw [List.map_map, List.map_map]
    exact List.map_congr_left fun n hn => h.stepIn_eq hports (hnodes n hn) (hpart n hn)
  · rw [List.foldl_map]
    refine List.foldl_ext _ _ _ fun known n hn => ?_
    rw [h.parameter n (hnodes n hn) (hpart n hn)]
  · rw [List.length_map]
    rfl

/-- A schedule of nodes of the part is one in the other graph, if the sink is the only one there. -/
theorem schedule (h : Matches f part g g') {init : List Node} {sink : Node}
    (hs : g.Schedule init sink) (hpart : ∀ n ∈ init ++ [sink], n.id ∈ part) (hg' : g'.Checked)
    (honly : g'.nodes.filter (·.op.isSink) = [sink.rename f]) :
    g'.Schedule (init.map (Node.rename f)) (sink.rename f) := by
  refine ⟨hg', honly, ?_, fun n' hn' => ?_⟩
  · show g'.dependencyOrder (f sink.id) = _
    rw [h.dependencyOrder_eq (hpart sink (by simp)), hs.order, map_rename_concat, List.map_map]
    show Except.ok _ = Except.ok _
    rw [List.map_map]
    rfl
  · rw [map_rename_concat] at hn'
    obtain ⟨n, hn, rfl⟩ := List.mem_map.1 hn'
    have hsome := h.node n.id (hpart n hn)
    rw [hs.node?_eq_some hn] at hsome
    exact List.mem_of_find?_eq_some hsome

/-- A node of the part meets the same obstacle in both graphs. -/
theorem obstacle_eq (h : Matches f part g g') (hn : n ∈ g.nodes) (hpart : n.id ∈ part) :
    g'.obstacle isKnown (n.rename f) = (g.obstacle isKnown n).map (Defect.rename f) := by
  rw [obstacle, obstacle, h.parameter n hn hpart]
  show (if isKnown n.op then _ else _) = _
  split
  · show (if n.op.isParameter && (g.parameterRead n).isNone then _ else _) = _
    split <;> rfl
  · rfl

/-- The first obstacle that nodes of the part meet is the same. -/
theorem findSome?_obstacle_eq (h : Matches f part g g') (hnodes : ∀ n ∈ nodes, n ∈ g.nodes)
    (hpart : ∀ n ∈ nodes, n.id ∈ part) :
    (nodes.map (Node.rename f)).findSome? (g'.obstacle isKnown) =
      (nodes.findSome? (g.obstacle isKnown)).map (Defect.rename f) := by
  induction nodes with
  | nil => rfl
  | cons n nodes ih =>
    obtain ⟨hn, hnodes⟩ := List.forall_mem_cons.1 hnodes
    obtain ⟨hpn, hpart⟩ := List.forall_mem_cons.1 hpart
    rw [List.map_cons, List.findSome?_cons, List.findSome?_cons, h.obstacle_eq hn hpn]
    cases g.obstacle isKnown n with
    | none => exact ih hnodes hpart
    | some defect => rfl

end Matches

end Graph

end NodeGraph
