import NodeGraph.Operation.Builtin
import NodeGraph.Proofs.Pass.Meaning
import NodeGraph.Proofs.Plan.WellFormed
import NodeGraph.Proofs.Plan.Wiring

/-!
# What chance can reach

A computation is steady if it comes to the same in every context, but for the context itself
(`Logged.Steady`). Apart from the one that draws random vectors, the built-in operations are steady
(`OpTable.steady_builtin`).

With such a table, chance reaches only the nodes that depend on a random vector. Two evaluations of
a graph, in whatever contexts, have the same values at the ports of all other nodes, since a node
takes what nodes that it needs give (`Memo.Agree.evaluateNode`). A pass therefore leaves the same
in the slots of these nodes (`Graph.Schedule.get_pass_eq`), and a plan without random vectors leaves
the same in every pass (`Graph.Schedule.repeats`).
-/

namespace NodeGraph

open SlotPool Relation

/-- A computation that always gives the same, counts the same number of fallbacks in a pass and
draws nothing from the random stream. -/
def Logged.Steady {α : Type} (x : Logged Context α) : Prop :=
  ∃ a k, ∀ c, (x c).result = a ∧ (x c).state.stream = c.stream ∧
    (x c).state.tally.lastPass = c.tally.lastPass + k

namespace Logged.Steady

variable {α β : Type}

/-- To give something back is steady. -/
theorem pure (a : α) : Steady (return a) :=
  ⟨a, 0, fun _ => ⟨rfl, rfl, rfl⟩⟩

/-- One steady computation after another is steady, if the second is so whatever it gets from the
first. -/
theorem bind {x : Logged Context α} {f : α → Logged Context β} (hx : Steady x)
    (hf : ∀ a, Steady (f a)) : Steady (x >>= f) := by
  obtain ⟨a, k, hx⟩ := hx
  obtain ⟨b, l, hf⟩ := hf a
  refine ⟨b, k + l, fun c => ?_⟩
  obtain ⟨hresult, hstream, hcount⟩ := hx c
  obtain ⟨hresult', hstream', hcount'⟩ := hf (x c).state
  show (f (x c).result (x c).state).result = b ∧ (f (x c).result (x c).state).state.stream = _ ∧
    (f (x c).result (x c).state).state.tally.lastPass = _
  rw [hresult]
  refine ⟨hresult', hstream'.trans hstream, ?_⟩
  rw [hcount', hcount, Nat.add_assoc]

/-- A fallback is steady. It counts one in every context. -/
theorem fallback (source : Option ValueType) (target : ValueType) :
    Steady (Context.fallback source target) :=
  ⟨(), 1, fun _ => ⟨rfl, rfl, rfl⟩⟩

/-- To coerce a value to the data of a type is steady. -/
theorem coerce (ty : ValueType) (v : Value) : Steady (Context.coerce ty v) := by
  unfold Context.coerce
  cases v.as? ty with
  | some payload => exact pure payload
  | none => exact (fallback v.type? ty).bind fun _ => pure ty.zeroPayload

/-- To coerce a value to a type is steady, since it depends on the value and the type whether this
is a fallback. -/
theorem convert (v : Value) (ty : ValueType) : Steady (Context.convert v ty) := by
  unfold Context.convert
  cases v.convert? ty with
  | some w => exact pure w
  | none => exact (fallback v.type? ty).bind fun _ => pure ty.zero

/-- To coerce values to types is steady. -/
theorem convertAll (types : List ValueType) (vs : List Value) :
    Steady (Context.convertAll types vs) := by
  induction types generalizing vs with
  | nil => exact pure []
  | cons ty types ih =>
    cases vs with
    | nil => exact pure []
    | cons v vs => exact (convert v ty).bind fun w => (ih vs).bind fun ws => pure (w :: ws)

/-- To read the sink is steady, given the store. -/
theorem read (p : Plan) (store : SlotStore) : Steady (Readout.read p store) := by
  unfold Readout.read
  cases p.sink? with
  | none => exact pure Readout.zero
  | some sink =>
    exact (coerce ..).bind fun _ => (coerce ..).bind fun _ => (coerce ..).bind fun _ => pure _

end Logged.Steady

namespace OpTable

/-- A table in which every operation is steady but the one that draws random vectors. -/
def Steady (t : OpTable) : Prop :=
  ∀ op e, op ≠ .randomVector3 → t.find? op = some e → ∀ inputs, (e.operation inputs).Steady

/-- An entry of a table that others have been put in is one of them, or was there before. -/
theorem mem_insertEntry {op : OpCode} {e : OpEntry} {entries : List (OpCode × OpEntry)}
    {x : OpCode × OpEntry} (hx : x ∈ insertEntry op e entries) : x = (op, e) ∨ x ∈ entries := by
  induction entries with
  | nil => exact .inl (List.mem_singleton.1 hx)
  | cons y entries ih =>
    rw [insertEntry] at hx
    split at hx
    · exact List.mem_cons.1 hx
    · exact (List.mem_cons.1 hx).imp_right (List.mem_cons_of_mem _)
    · rcases List.mem_cons.1 hx with rfl | hx
      · exact .inr List.mem_cons_self
      · exact (ih hx).imp_right (List.mem_cons_of_mem _)

/-- An entry of a table that a list has been put in is in the list, or was there before. -/
theorem mem_foldl_insert {entries : List (OpCode × OpEntry)} {t : OpTable} {x : OpCode × OpEntry}
    (hx : x ∈ (entries.foldl (fun t y => t.insert y.1 y.2) t).entries) :
    x ∈ entries ∨ x ∈ t.entries := by
  induction entries generalizing t with
  | nil => exact .inr hx
  | cons y entries ih =>
    rcases ih hx with hx | hx
    · exact .inl (List.mem_cons_of_mem _ hx)
    · exact (mem_insertEntry hx).imp_left fun h => List.mem_cons.2 (.inl h)

/-- A table that was made from a list has no other entries than those of the list. -/
theorem mem_of_find?_ofList {entries : List (OpCode × OpEntry)} {op : OpCode} {e : OpEntry}
    (h : (ofList entries).find? op = some e) : (op, e) ∈ entries := by
  obtain ⟨⟨op', e'⟩, hx, rfl⟩ := Option.map_eq_some_iff.1 h
  have hop : op' = op := by simpa using List.find?_some hx
  have hmem := mem_foldl_insert (t := {}) (List.mem_of_find?_eq_some hx)
  exact hop ▸ hmem.resolve_right List.not_mem_nil

/-- The built-in operations are steady, but for the one that draws random vectors. They are looked
at one by one. -/
theorem steady_builtin : builtin.Steady := by
  intro op e hop he inputs
  have hbinary (f : Float32 → Float32 → Float32) : (Operation.binary f inputs).Steady :=
    (Logged.Steady.coerce ..).bind fun _ => (Logged.Steady.coerce ..).bind fun _ => .pure _
  have hmem := mem_of_find?_ofList he
  simp only [List.mem_cons, List.not_mem_nil, or_false, Prod.mk.injEq] at hmem
  rcases hmem with ⟨-, rfl⟩ | ⟨rfl, -⟩ | ⟨-, rfl⟩ | ⟨-, rfl⟩ | ⟨-, rfl⟩ | ⟨-, rfl⟩ | ⟨-, rfl⟩ |
    ⟨-, rfl⟩ | ⟨-, rfl⟩ | ⟨-, rfl⟩ | ⟨-, rfl⟩ | ⟨-, rfl⟩ | ⟨-, rfl⟩ | ⟨-, rfl⟩
  · exact .pure inputs
  · exact absurd rfl hop
  · exact .pure _
  · exact .pure _
  · exact .pure _
  · exact .pure _
  · exact .pure _
  · exact .pure _
  · exact hbinary _
  · exact hbinary _
  · exact hbinary _
  · exact hbinary _
  · exact hbinary _
  · exact .pure _

end OpTable

namespace Memo

/-- What is given at other ports leaves the value at a port as it is. -/
theorem give_of_not_mem {ports : List PortRef} {port : PortRef} (h : port ∉ ports)
    (values : PortRef → Value) (vs : List Value) : give values ports vs port = values port := by
  induction ports generalizing values vs with
  | nil => rfl
  | cons first ports ih =>
    cases vs with
    | nil => rfl
    | cons v vs =>
      rw [give, ih (List.not_mem_of_not_mem_cons h),
        Function.update_of_ne (List.ne_of_not_mem_cons h)]

/-- What is given keeps two assignments of values in agreement at a port, whether or not it is given
there. -/
theorem give_congr {values values' : PortRef → Value} {port : PortRef}
    (h : values port = values' port) (ports : List PortRef) (vs : List Value) :
    give values ports vs port = give values' ports vs port := by
  induction ports generalizing values values' vs with
  | nil => exact h
  | cons first ports ih =>
    cases vs with
    | nil => exact h
    | cons v vs =>
      refine ih ?_ vs
      by_cases hport : port = first
      · rw [hport, Function.update_self, Function.update_self]
      · rw [Function.update_of_ne hport, Function.update_of_ne hport, h]

end Memo

namespace Graph

variable {t : OpTable} {g : Graph} {n : Node}

/-- A node is calm if neither it nor a node that it depends on draws random vectors. -/
def Calm (g : Graph) (id : NodeId) : Prop :=
  ∀ id', ReflTransGen g.Needs id id' → ∀ n, g.node? id' = some n → n.op ≠ .randomVector3

/-- What a calm node needs is calm, since it depends on less. -/
theorem Calm.of_needs {id id' : NodeId} (h : g.Calm id) (hneeds : g.Needs id id') : g.Calm id' :=
  fun _ hreach => h _ (.head hneeds hreach)

/-- The values that a node gives, coerced to the types of its ports. For the sink these are its
input ports. -/
def yield (t : OpTable) (g : Graph) (values : PortRef → Value) (n : Node) :
    Logged Context (List Value) := do
  let vs ← t.invoke n.op (g.inputValues values n)
  Context.convertAll (n.resultPorts.map (·.type)) vs

/-- What a node that is invoked does to a memo: the values that it yields go to its ports, or to the
results if it is the sink. -/
theorem state_invoke (t : OpTable) (g : Graph) (n : Node) (m : Memo) :
    (g.invoke t n m).state =
      if n.op.isSink then
        { m with
          results := (g.yield t m.values n m.context).result
          context := (g.yield t m.values n m.context).state }
      else
        { m with
          values := Memo.give m.values (n.outputs.map n.ref) (g.yield t m.values n m.context).result
          context := (g.yield t m.values n m.context).state } := by
  rw [invoke_eq]
  rfl

/-- What a node gives is steady, if it draws no random vector. -/
theorem steady_yield (ht : t.Steady) (hn : n.op ≠ .randomVector3) (values : PortRef → Value) :
    (g.yield t values n).Steady := by
  refine .bind ?_ fun vs => .convertAll _ vs
  cases he : t.find? n.op with
  | none =>
    rw [OpTable.invoke_of_find?_none he]
    exact .pure []
  | some e =>
    rw [OpTable.invoke_of_find? he]
    exact ht n.op e hn he _

/-- What a node takes depends on the values at its sources alone. -/
theorem inputValues_congr {values values' : PortRef → Value}
    (h : ∀ port ∈ n.inputs, ∀ source, g.source? (n.ref port) = some source →
      values source = values' source) :
    g.inputValues values n = g.inputValues values' n := by
  rw [inputValues_eq, inputValues_eq]
  split
  · rfl
  · split
    · rfl
    · refine List.map_congr_left ?_
      rintro ⟨port, position⟩ hport
      dsimp only
      cases hsource : g.source? (n.ref port) with
      | none => rfl
      | some source => exact h port (List.fst_mem_of_mem_zipIdx hport) source hsource

end Graph

namespace Memo

variable {t : OpTable} {g : Graph} {m m' : Memo}

/-- Two memos agree in what chance cannot reach: the values at the ports of calm nodes, and the
results of a calm sink. -/
structure Agree (g : Graph) (m m' : Memo) : Prop where
  values : ∀ port, g.Calm port.node → m.values port = m'.values port
  results : (∀ n ∈ g.nodes, n.op.isSink → g.Calm n.id) → m.results = m'.results

namespace Agree

/-- Memos that agree give a calm node the same inputs, since these come from calm nodes. -/
theorem yield_eq (h : Agree g m m') (hg : g.Checked) {n : Node} (hn : n ∈ g.nodes)
    (hcalm : g.Calm n.id) : g.yield t m.values n = g.yield t m'.values n := by
  have hinputs : g.inputValues m.values n = g.inputValues m'.values n := by
    refine Graph.inputValues_congr fun port hport source hsource => h.values source ?_
    obtain ⟨w, hw, htarget, rfl⟩ := hg.source?_eq_some_iff.1 hsource
    exact hcalm.of_needs ⟨n, hn, rfl, port, hport, w, hw, htarget, rfl⟩
  rw [Graph.yield, Graph.yield, hinputs]

/-- A calm node gives the same in memos that agree, in whatever contexts they are. -/
theorem result_yield (h : Agree g m m') (ht : t.Steady) (hg : g.Checked) {n : Node}
    (hn : n ∈ g.nodes) (hcalm : g.Calm n.id) :
    (g.yield t m.values n m.context).result = (g.yield t m'.values n m'.context).result := by
  have hop : n.op ≠ .randomVector3 := hcalm n.id .refl n (hg.node?_eq_some_iff.2 ⟨hn, rfl⟩)
  obtain ⟨vs, k, hsteady⟩ := g.steady_yield ht hop m.values
  rw [← h.yield_eq hg hn hcalm, (hsteady m.context).1, (hsteady m'.context).1]

/-- Memos that agree still do so after a node has been evaluated in both. If the node is calm, it
gives the same, and otherwise it gives values at its own ports alone. -/
theorem evaluateNode (h : Agree g m m') (ht : t.Steady) (hg : g.Checked) (id : NodeId) :
    Agree g (g.evaluateNode t id m).state (g.evaluateNode t id m').state := by
  cases hnode : g.node? id with
  | none =>
    rw [Graph.evaluateNode_of_node?_none hnode, Graph.evaluateNode_of_node?_none hnode]
    exact ⟨h.values, h.results⟩
  | some n =>
    obtain ⟨hn, rfl⟩ := hg.node?_eq_some_iff.1 hnode
    rw [Graph.evaluateNode_of_node? hnode, Graph.evaluateNode_of_node? hnode, Graph.state_invoke,
      Graph.state_invoke]
    cases hsink : n.op.isSink with
    | true =>
      refine ⟨h.values, fun hcalm => ?_⟩
      exact h.result_yield ht hg hn (hcalm n hn hsink)
    | false =>
      refine ⟨fun port hport => ?_, h.results⟩
      show give m.values (n.outputs.map n.ref) _ port = give m'.values (n.outputs.map n.ref) _ port
      by_cases hcalm : g.Calm n.id
      · rw [h.result_yield ht hg hn hcalm]
        exact give_congr (h.values port hport) _ _
      · have hother : port ∉ n.outputs.map n.ref := by
          intro hmem
          obtain ⟨_, -, rfl⟩ := List.mem_map.1 hmem
          exact hcalm hport
        rw [give_of_not_mem hother, give_of_not_mem hother, h.values port hport]

/-- Memos that agree still do so after nodes have been evaluated in both, calm or not. -/
theorem forM (h : Agree g m m') (ht : t.Steady) (hg : g.Checked) (ids : List NodeId) :
    Agree g (ids.forM (g.evaluateNode t) m).state (ids.forM (g.evaluateNode t) m').state := by
  induction ids generalizing m m' with
  | nil => exact h
  | cons id ids ih => exact ih (h.evaluateNode ht hg id)

end Agree

/-- Two memos are in step if they agree and have counted the same number of fallbacks. -/
structure InStep (g : Graph) (m m' : Memo) : Prop extends Agree g m m' where
  fallbacks : m.context.tally.lastPass = m'.context.tally.lastPass

/-- Two passes begin in step, whatever contexts they begin in. -/
theorem InStep.beginPass (g : Graph) (c c' : Context) :
    InStep g { context := c.beginPass } { context := c'.beginPass } :=
  ⟨⟨fun _ _ => rfl, fun _ => rfl⟩, rfl⟩

/-- A calm node draws nothing from the random stream, and leaves memos in step. -/
theorem InStep.evaluateNode (h : InStep g m m') (ht : t.Steady) (hg : g.Checked) {id : NodeId}
    (hcalm : g.Calm id) :
    InStep g (g.evaluateNode t id m).state (g.evaluateNode t id m').state ∧
      (g.evaluateNode t id m).state.context.stream = m.context.stream := by
  have hagree := h.toAgree.evaluateNode ht hg id
  cases hnode : g.node? id with
  | none =>
    rw [Graph.evaluateNode_of_node?_none hnode, Graph.evaluateNode_of_node?_none hnode]
    exact ⟨⟨⟨h.values, h.results⟩, h.fallbacks⟩, rfl⟩
  | some n =>
    obtain ⟨hn, rfl⟩ := hg.node?_eq_some_iff.1 hnode
    have hcontext (m : Memo) : (g.evaluateNode t n.id m).state.context =
        (g.yield t m.values n m.context).state := by
      rw [Graph.evaluateNode_of_node? hnode, Graph.state_invoke]
      split <;> rfl
    obtain ⟨vs, k, hsteady⟩ := g.steady_yield ht (hcalm n.id .refl n hnode) m.values
    obtain ⟨-, hstream, hcount⟩ := hsteady m.context
    obtain ⟨-, -, hcount'⟩ := hsteady m'.context
    refine ⟨⟨hagree, ?_⟩, ?_⟩
    · rw [hcontext, hcontext, ← h.yield_eq hg hn hcalm, hcount, hcount', h.fallbacks]
    · rw [hcontext, hstream]

/-- Calm nodes draw nothing from the random stream, and leave memos in step. Here all nodes have to
be calm, since others may count differently. -/
theorem InStep.forM (h : InStep g m m') (ht : t.Steady) (hg : g.Checked) {ids : List NodeId}
    (hcalm : ∀ id ∈ ids, g.Calm id) :
    InStep g (ids.forM (g.evaluateNode t) m).state (ids.forM (g.evaluateNode t) m').state ∧
      (ids.forM (g.evaluateNode t) m).state.context.stream = m.context.stream := by
  induction ids generalizing m m' with
  | nil => exact ⟨h, rfl⟩
  | cons id ids ih =>
    obtain ⟨hid, hids⟩ := List.forall_mem_cons.1 hcalm
    obtain ⟨hfirst, hstream⟩ := h.evaluateNode ht hg hid
    obtain ⟨hrest, hstream'⟩ := ih hfirst hids
    exact ⟨hrest, hstream'.trans hstream⟩

variable {ports : List PortRef} {size : Nat}

/-- The slot of a port holds the value at the port. -/
theorem get_store {port : PortRef} (h : port ∈ ports) :
    (m.store ports size).get (slotIn ports port) = .ok (m.values port) := by
  have hlt : ports.idxOf port < (ports.map m.values).length := by
    rw [List.length_map]
    exact List.idxOf_lt_length_of_mem h
  simp [SlotStore.get, store, slotIn, List.getElem?_append_left hlt, List.getElem?_idxOf h]

/-- The slots after those of ports hold the results of the sink, absent where it gave none. -/
theorem get_store_results {i : Nat} (hi : i < size) :
    (m.store ports size).get ⟨ports.length + i⟩ = .ok (m.results.getD i .absent) := by
  have htail : (m.store ports size).values[ports.length + i]? =
      some (m.results.getD i .absent) := by
    rw [store, List.getElem?_append_right (by simp), List.length_map, Nat.add_sub_cancel_left]
    by_cases hresult : i < m.results.length
    · simp [List.getElem?_append_left hresult, List.getD_eq_getElem?_getD, hresult]
    · have hle : m.results.length ≤ i := Nat.le_of_not_lt hresult
      rw [List.getElem?_append_right hle, List.getElem?_replicate,
        if_pos (Nat.sub_lt_sub_right hle hi), List.getD_eq_getElem?_getD,
        List.getElem?_eq_none hle, Option.getD_none]
  simp [SlotStore.get, htail]

end Memo

/-- A plan repeats itself if each of its passes leaves the same slots, is read alike, counts the
same number of fallbacks and leaves the random stream as it is. -/
def Plan.Repeats (t : OpTable) (p : Plan) (store : SlotStore) (readout : Readout)
    (fallbacks : Nat) : Prop :=
  ∀ f : Frame,
    let run := p.pass t f
    let read := Readout.read p run.state.store run.state.context
    run.state.store = store ∧ run.state.context.stream = f.context.stream ∧
      read.result = readout ∧ read.state.stream = f.context.stream ∧
      read.state.tally.lastPass = fallbacks

namespace Graph.Schedule

variable {t : OpTable} {g : Graph} {init : List Node} {sink n : Node}

/-- The ports that own slots are those of nodes of the schedule. -/
theorem exists_node_of_mem_portsOf (h : g.Schedule init sink) {port : PortRef}
    (hport : port ∈ g.portsOf (init ++ [sink])) : ∃ n ∈ init ++ [sink], port.node = n.id := by
  rw [h.portsOf_eq, mem_enroll] at hport
  obtain ⟨n, hn, htarget⟩ := List.mem_flatMap.1 (hport.resolve_left List.not_mem_nil)
  exact ⟨n, List.mem_append_left _ hn, node_of_mem_targets htarget⟩

/-- After any two passes of a plan, the slots of a calm node hold the same values. The passes may
start in different contexts and with different stores. -/
theorem get_pass_eq (h : g.Schedule init sink)
    (hbuild : ∀ n ∈ init ++ [sink], g.Buildable t.contains n) (ht : t.Steady) (f f' : Frame)
    (hn : n ∈ init ++ [sink]) (hcalm : g.Calm n.id) {slot : Slot}
    (hslot : slot ∈ (g.stepIn (g.portsOf (init ++ [sink])) n).writes) :
    ∃ v, ((g.planOn init sink).pass t f).state.store.get slot = .ok v ∧
      ((g.planOn init sink).pass t f').state.store.get slot = .ok v := by
  have hagree : Memo.Agree g
      (((init ++ [sink]).map (·.id)).forM (g.evaluateNode t)
        { context := f.context.beginPass }).state
      (((init ++ [sink]).map (·.id)).forM (g.evaluateNode t)
        { context := f'.context.beginPass }).state :=
    (Memo.InStep.beginPass g f.context f'.context).toAgree.forM ht h.checked _
  obtain ⟨scratch, hpass⟩ := (h.pass_planOn hbuild f).1
  obtain ⟨scratch', hpass'⟩ := (h.pass_planOn hbuild f').1
  rw [hpass, hpass']
  dsimp only [Memo.frame]
  cases hsink : n.op.isSink with
  | false =>
    rw [writes_stepIn g _ hsink] at hslot
    obtain ⟨port, hport, rfl⟩ := List.mem_map.1 hslot
    have hmem : port ∈ g.portsOf (init ++ [sink]) := mem_portsOf.2 ⟨n, hn, .inr hport⟩
    refine ⟨_, Memo.get_store hmem, ?_⟩
    rw [Memo.get_store hmem, hagree.values port (node_of_mem_targets hport ▸ hcalm)]
  | true =>
    obtain rfl := h.eq_sink hn hsink
    rw [writes_stepIn_of_isSink g _ hsink] at hslot
    obtain ⟨i, hi, rfl⟩ := List.mem_map.1 hslot
    have hresults := hagree.results fun m hm hop => by
      rw [h.eq_sink (h.mem_iff_live.2 ⟨hm, m, hm, hop, .refl⟩) hop]
      exact hcalm
    refine ⟨_, Memo.get_store_results (List.mem_range.1 hi), ?_⟩
    rw [Memo.get_store_results (List.mem_range.1 hi), hresults]

/-- Where no live node draws random vectors, all nodes of the schedule are calm. -/
theorem calm (h : g.Schedule init sink)
    (hno : ∀ n ∈ g.nodes, g.Live n.id → n.op ≠ .randomVector3) (hn : n ∈ init ++ [sink]) :
    g.Calm n.id := by
  intro id hreach m hm
  obtain ⟨hmem, rfl⟩ := h.checked.node?_eq_some_iff.1 hm
  obtain ⟨sink', hsink', hop, hsinkreach⟩ := (h.mem_iff_live.1 hn).2
  exact hno m hmem ⟨sink', hsink', hop, hsinkreach.trans hreach⟩

/-- A plan without random vectors repeats itself. What it leaves is what a pass leaves that starts
in an arbitrary frame. -/
theorem repeats (h : g.Schedule init sink)
    (hbuild : ∀ n ∈ init ++ [sink], g.Buildable t.contains n) (ht : t.Steady)
    (hno : ∀ n ∈ g.nodes, g.Live n.id → n.op ≠ .randomVector3) :
    ∃ store readout fallbacks, (g.planOn init sink).Repeats t store readout fallbacks := by
  have hcalm : ∀ id ∈ (init ++ [sink]).map (·.id), g.Calm id := by
    rw [List.forall_mem_map]
    exact fun n hn => h.calm hno hn
  -- Every pass is compared with one that starts from nothing.
  let run (c : Context) :=
    (((init ++ [sink]).map (·.id)).forM (g.evaluateNode t) { context := c.beginPass }).state
  let c₀ : Context := .ofSeed 0
  let store := (run c₀).store (g.portsOf (init ++ [sink])) sink.inputs.length
  obtain ⟨readout, k, hread⟩ := Logged.Steady.read (g.planOn init sink) store
  refine ⟨store, readout, (run c₀).context.tally.lastPass + k, fun f => ?_⟩
  obtain ⟨hstep, hstream⟩ : Memo.InStep g (run f.context) (run c₀) ∧
      (run f.context).context.stream = f.context.stream :=
    (Memo.InStep.beginPass g f.context c₀).forM ht h.checked hcalm
  have hstore : (run f.context).store (g.portsOf (init ++ [sink])) sink.inputs.length = store := by
    have hvalues : (g.portsOf (init ++ [sink])).map (run f.context).values =
        (g.portsOf (init ++ [sink])).map (run c₀).values := by
      refine List.map_congr_left fun port hport => hstep.values port ?_
      obtain ⟨n, hn, hid⟩ := h.exists_node_of_mem_portsOf hport
      exact hid ▸ h.calm hno hn
    have hresults : (run f.context).results = (run c₀).results :=
      hstep.results fun m hm hop => h.calm hno (h.mem_iff_live.2 ⟨hm, m, hm, hop, .refl⟩)
    simp only [store, Memo.store, hvalues, hresults]
  obtain ⟨hresult, hstream', hcount⟩ := hread (run f.context).context
  obtain ⟨scratch, hpass⟩ := (h.pass_planOn hbuild f).1
  rw [hpass]
  show (run f.context).store _ _ = store ∧ (run f.context).context.stream = _ ∧
    (Readout.read _ ((run f.context).store _ _) (run f.context).context).result = _ ∧
    (Readout.read _ ((run f.context).store _ _) (run f.context).context).state.stream = _ ∧
    (Readout.read _ ((run f.context).store _ _)
      (run f.context).context).state.tally.lastPass = _
  rw [hstore, hresult, hstream', hcount, hstep.fallbacks]
  exact ⟨rfl, hstream, rfl, hstream, rfl⟩

end Graph.Schedule

end NodeGraph
