import NodeGraph.Proofs.Json.Numbers
import NodeGraph.Session.Basic

/-!
# Graphs that are saved and loaded

Everything in a graph but its scalars is read from a document as it was written. So what is loaded
after a graph is saved is the graph with each scalar replaced by what is read from the scalar's own
text: `Graph.parse?_render`. It is the graph itself exactly if each scalar is recovered
(`Graph.parse?_render_eq_self_iff`), and loading fails exactly if some scalar is not finite
(`Graph.loads_again_iff`). A document that was loaded can hold such a scalar, since a number beyond
the range of scalars is loaded as an infinity.

Reading is the inverse of writing part by part: each part has a lemma `ofJson?_toJson`, which says
what is read from the tree that is written, and a lemma `writable_toJson`, which says that the tree
can be written. That the text of a tree is read as the tree is `Json.parse?_pretty`.
-/

namespace NodeGraph

open Json

/-! ## Lists and records -/

section Lists

variable {α β : Type} {as : List α}

/-- A list can be mapped exactly if each item can. One item that cannot be mapped spoils the
list. -/
theorem isSome_mapM (f : α → Option β) (as : List α) :
    (as.mapM f).isSome = as.all fun a => (f a).isSome := by
  induction as with
  | nil => rfl
  | cons a as ih =>
    rw [List.mapM_cons, List.all_cons, ← ih]
    cases f a with
    | none => rfl
    | some b =>
      cases as.mapM f with
      | none => rfl
      | some bs => rfl

/-- A list is mapped to itself exactly if each item is. No item can change place. -/
theorem mapM_eq_self_iff {f : α → Option α} : as.mapM f = some as ↔ ∀ a ∈ as, f a = some a := by
  induction as with
  | nil => simp
  | cons a as ih =>
    rw [List.mapM_cons, List.forall_mem_cons, ← ih]
    cases f a with
    | none => simp
    | some b =>
      cases as.mapM f with
      | none => simp
      | some bs => simp

namespace Json

/-- A list that is written item by item is read item by item, with what reading makes of a written
item. -/
theorem list?_map {write : α → Json} {read? : Json → Option β} {f : α → Option β}
    (h : ∀ a, read? (write a) = f a) (as : List α) :
    list? read? (.array (as.map write)) = as.mapM f := by
  have hread : (fun a => read? (write a)) = f := funext h
  rw [list?, List.mapM_map]
  exact congrArg (List.mapM · as) hread

/-- A list is read as it was written if each item is. This is the case in which reading changes
nothing. -/
theorem list?_map_self {write : α → Json} {read? : Json → Option α}
    (h : ∀ a, read? (write a) = some a) (as : List α) :
    list? read? (.array (as.map write)) = some as := by
  rw [list?_map h]
  exact mapM_eq_self_iff.2 fun _ _ => rfl

end Json

end Lists

/-! ## Scalars of a graph -/

variable {f : Float32 → Option Float32}

namespace Value

/-- The scalars in a value. Integers are none, although they can be coerced to scalars. -/
def scalars : Value → List Float32
  | .absent | .bool _ | .integer _ => []
  | .scalar s => [s]
  | .vector2 v => [v.x, v.y]
  | .vector3 v => [v.x, v.y, v.z]
  | .vector4 v => [v.x, v.y, v.z, v.w]

/-- The value with its scalars mapped, if each of them can be. Everything else about the value
stays. -/
def mapScalars? (f : Float32 → Option Float32) : Value → Option Value
  | .scalar s => (f s).map .scalar
  | .vector2 v => return .vector2 ⟨← f v.x, ← f v.y⟩
  | .vector3 v => return .vector3 ⟨← f v.x, ← f v.y, ← f v.z⟩
  | .vector4 v => return .vector4 ⟨← f v.x, ← f v.y, ← f v.z, ← f v.w⟩
  | v => some v

/-- A value can be mapped exactly if its scalars can, of which there are up to four. -/
theorem isSome_mapScalars? (f : Float32 → Option Float32) (v : Value) :
    (v.mapScalars? f).isSome = v.scalars.all fun x => (f x).isSome := by
  cases v with
  | absent | bool | integer => rfl
  | scalar s => cases hs : f s <;> simp [mapScalars?, scalars, hs]
  | vector2 v =>
    cases hx : f v.x <;> cases hy : f v.y <;> simp [mapScalars?, scalars, hx, hy]
  | vector3 v =>
    cases hx : f v.x <;> cases hy : f v.y <;> cases hz : f v.z <;>
      simp [mapScalars?, scalars, hx, hy, hz]
  | vector4 v =>
    cases hx : f v.x <;> cases hy : f v.y <;> cases hz : f v.z <;> cases hw : f v.w <;>
      simp [mapScalars?, scalars, hx, hy, hz, hw]

/-- A value is mapped to itself exactly if its scalars are. There may be none. -/
theorem mapScalars?_eq_self_iff {v : Value} :
    v.mapScalars? f = some v ↔ ∀ x ∈ v.scalars, f x = some x := by
  cases v with
  | absent | bool | integer => simp [mapScalars?, scalars]
  | scalar s => cases hs : f s <;> simp [mapScalars?, scalars, hs]
  | vector2 v =>
    obtain ⟨x, y⟩ := v
    cases hx : f x <;> cases hy : f y <;> simp [mapScalars?, scalars, hx, hy]
  | vector3 v =>
    obtain ⟨x, y, z⟩ := v
    cases hx : f x <;> cases hy : f y <;> cases hz : f z <;>
      simp [mapScalars?, scalars, hx, hy, hz]
  | vector4 v =>
    obtain ⟨x, y, z, w⟩ := v
    cases hx : f x <;> cases hy : f y <;> cases hz : f z <;> cases hw : f w <;>
      simp [mapScalars?, scalars, hx, hy, hz, hw]

end Value

namespace Node

/-- The scalars in a node, which are those of its literals. -/
def scalars (n : Node) : List Float32 :=
  n.literals.flatMap Value.scalars

/-- The node with its scalars mapped, if each of them can be. Ports and numbers stay. -/
def mapScalars? (f : Float32 → Option Float32) (n : Node) : Option Node :=
  (n.literals.mapM (Value.mapScalars? f)).map fun literals => { n with literals }

/-- A node can be mapped exactly if its scalars can. -/
theorem isSome_mapScalars? (f : Float32 → Option Float32) (n : Node) :
    (n.mapScalars? f).isSome = n.scalars.all fun x => (f x).isSome := by
  simp only [mapScalars?, scalars, Option.isSome_map, isSome_mapM, Value.isSome_mapScalars?,
    List.all_flatMap]

/-- A node is mapped to itself exactly if its scalars are. -/
theorem mapScalars?_eq_self_iff {n : Node} :
    n.mapScalars? f = some n ↔ ∀ x ∈ n.scalars, f x = some x := by
  have hliterals : n.mapScalars? f = some n ↔
      n.literals.mapM (Value.mapScalars? f) = some n.literals := by
    obtain ⟨id, op, ports, literals, parameter⟩ := n
    simp [mapScalars?]
  simp only [hliterals, mapM_eq_self_iff, Value.mapScalars?_eq_self_iff, scalars,
    List.forall_mem_flatMap]

end Node

namespace Parameter

/-- The parameter with the scalars of its value mapped, if each of them can be. Number and name
stay. -/
def mapScalars? (f : Float32 → Option Float32) (p : Parameter) : Option Parameter :=
  (p.value.mapScalars? f).map fun value => { p with value }

/-- A parameter is mapped to itself exactly if the scalars of its value are. -/
theorem mapScalars?_eq_self_iff {p : Parameter} :
    p.mapScalars? f = some p ↔ ∀ x ∈ p.value.scalars, f x = some x := by
  rw [← Value.mapScalars?_eq_self_iff]
  obtain ⟨id, name, value⟩ := p
  simp [mapScalars?]

end Parameter

namespace Graph

/-- The scalars in a graph: those of all literals, and those of all parameters. -/
def scalars (g : Graph) : List Float32 :=
  g.nodes.flatMap Node.scalars ++ g.parameters.flatMap (·.value.scalars)

/-- The graph with its scalars mapped, if each of them can be. This is what saving and loading can
do to a graph at most. -/
def mapScalars? (f : Float32 → Option Float32) (g : Graph) : Option Graph :=
  return {
    nodes := ← g.nodes.mapM (Node.mapScalars? f)
    wires := g.wires
    parameters := ← g.parameters.mapM (Parameter.mapScalars? f) }

/-- A graph can be mapped exactly if its scalars can, wherever they are. -/
theorem isSome_mapScalars? (f : Float32 → Option Float32) (g : Graph) :
    (g.mapScalars? f).isSome = g.scalars.all fun x => (f x).isSome := by
  have hparts : (g.mapScalars? f).isSome =
      ((g.nodes.mapM (Node.mapScalars? f)).isSome &&
        (g.parameters.mapM (Parameter.mapScalars? f)).isSome) := by
    unfold mapScalars?
    cases g.nodes.mapM (Node.mapScalars? f) with
    | none => rfl
    | some nodes =>
      cases g.parameters.mapM (Parameter.mapScalars? f) with
      | none => rfl
      | some parameters => rfl
  simp only [hparts, isSome_mapM, Node.isSome_mapScalars?, Parameter.mapScalars?,
    Option.isSome_map, Value.isSome_mapScalars?, scalars, List.all_append, List.all_flatMap]

/-- A graph is mapped to itself exactly if its scalars are. Wires hold none. -/
theorem mapScalars?_eq_self_iff {g : Graph} :
    g.mapScalars? f = some g ↔ ∀ x ∈ g.scalars, f x = some x := by
  have hparts : g.mapScalars? f = some g ↔
      g.nodes.mapM (Node.mapScalars? f) = some g.nodes ∧
        g.parameters.mapM (Parameter.mapScalars? f) = some g.parameters := by
    obtain ⟨nodes, wires, parameters⟩ := g
    simp [mapScalars?, Option.bind_eq_some_iff]
  simp only [hparts, mapM_eq_self_iff, Node.mapScalars?_eq_self_iff,
    Parameter.mapScalars?_eq_self_iff, scalars, List.forall_mem_append, List.forall_mem_flatMap]

end Graph

/-! ## Reading what is written -/

/-- A number of 16 bits is read as it was written. Reading asks for one below the bound, and it
is. -/
theorem Json.word?_ofWord (n : UInt16) : word? (ofWord n) = some n := by
  rw [word?, ofWord, nat?_int (by decide) n.toNat_lt]
  exact congrArg some UInt16.ofNat_toNat

/-- A node's number is read as it was written, over the whole range of 32 bits. -/
theorem NodeId.ofJson?_toJson (id : NodeId) : ofJson? id.toJson = some id := by
  rw [ofJson?, toJson, nat?_int (by decide) id.value.toNat_lt]
  exact congrArg (fun n => some (NodeId.mk n)) UInt32.ofNat_toNat

/-- A parameter's number is read as it was written, also the greatest one. -/
theorem ParameterId.ofJson?_toJson (id : ParameterId) : ofJson? id.toJson = some id := by
  rw [ofJson?, toJson, nat?_int (by decide) id.value.toNat_lt]
  exact congrArg (fun n => some (ParameterId.mk n)) UInt32.ofNat_toNat

/-- An operation is read as it was written, known to a table or not. -/
theorem OpCode.ofJson?_toJson (op : OpCode) : ofJson? op.toJson = some op := by
  show (do return OpCode.mk (← word? (ofWord op.family)) (← word? (ofWord op.kind))) = some op
  rw [word?_ofWord, word?_ofWord]
  rfl

/-- An end of a wire is read as it was written. -/
theorem PortRef.ofJson?_toJson (ref : PortRef) : ofJson? ref.toJson = some ref := by
  show (do
    return PortRef.mk (← NodeId.ofJson? ref.node.toJson) (← word? (ofWord ref.port))) = some ref
  rw [NodeId.ofJson?_toJson, word?_ofWord]
  rfl

/-- A wire is read as it was written, whether or not its ends exist. -/
theorem Wire.ofJson?_toJson (w : Wire) : ofJson? w.toJson = some w := by
  show (do
    return Wire.mk (← PortRef.ofJson? w.source.toJson) (← PortRef.ofJson? w.target.toJson)) = some w
  rw [PortRef.ofJson?_toJson, PortRef.ofJson?_toJson]
  rfl

/-- A direction is read as it was written, by its name. -/
theorem Direction.ofJson?_toJson (d : Direction) : ofJson? d.toJson = some d := by
  cases d <;> rfl

/-- A type is read as it was written, since different types have different names. -/
theorem ValueType.ofJson?_toJson (ty : ValueType) : ofJson? ty.toJson = some ty := by
  cases ty <;> rfl

/-- A port is read as it was written. Its name can be any text, since every text can be written with
escapes. -/
theorem Port.ofJson?_toJson (p : Port) : ofJson? p.toJson = some p := by
  show (do
    return Port.mk (← word? (ofWord p.id)) (← some p.name) (← Direction.ofJson? p.direction.toJson)
      (← ValueType.ofJson? p.type.toJson)) = some p
  rw [word?_ofWord, Direction.ofJson?_toJson, ValueType.ofJson?_toJson]
  rfl

namespace Value

/-- A value is read as it was written, but for its scalars, which are read from their own texts. -/
theorem ofJson?_toJson (v : Value) : ofJson? v.toJson = v.mapScalars? reread? := by
  have hreread : reread? = fun x => (ofScalar x).scalar? := funext reread?_eq
  rw [hreread]
  cases v with
  | absent | bool | scalar | vector2 | vector3 | vector4 => rfl
  | integer i =>
    have hlow := i.le_toInt
    have hhigh := i.toInt_lt
    show integerOfJson? (.int i.toInt) = some (.integer i)
    rw [integerOfJson?, int?_int (by omega) (hhigh.trans (by decide))]
    show (if _ then some (Value.integer (.ofInt i.toInt)) else none) = _
    rw [if_pos (by omega), Int32.ofInt_toInt]

end Value

/-- A parameter is read as it was written, but for the scalars of its value. -/
theorem Parameter.ofJson?_toJson (p : Parameter) : ofJson? p.toJson = p.mapScalars? reread? := by
  show (do
    return Parameter.mk (← ParameterId.ofJson? p.id.toJson) (← some p.name)
      (← Value.ofJson? p.value.toJson)) = p.mapScalars? reread?
  rw [ParameterId.ofJson?_toJson, Value.ofJson?_toJson, mapScalars?]
  cases p.value.mapScalars? reread? <;> rfl

/-- The parameter of a node is read as it was written, `null` standing for none. -/
theorem ParameterId.nullable?_toJson (id : Option ParameterId) :
    nullable? ofJson? (some ((id.map toJson).getD .null)) = some id := by
  cases id with
  | none => rfl
  | some id =>
    show (ofJson? id.toJson).map some = some (some id)
    rw [ofJson?_toJson]
    rfl

/-- A node is read as it was written, but for the scalars of its literals. All fields are written,
so that no default comes in. -/
theorem Node.ofJson?_toJson (n : Node) : ofJson? n.toJson = n.mapScalars? reread? := by
  show (do
    return Node.mk (← NodeId.ofJson? n.id.toJson) (← OpCode.ofJson? n.op.toJson)
      (← list? Port.ofJson? (.array (n.ports.map Port.toJson)))
      (← list? Value.ofJson? (.array (n.literals.map Value.toJson)))
      (← nullable? ParameterId.ofJson? (some ((n.parameter.map ParameterId.toJson).getD .null)))) =
    n.mapScalars? reread?
  rw [NodeId.ofJson?_toJson, OpCode.ofJson?_toJson, list?_map_self Port.ofJson?_toJson,
    list?_map Value.ofJson?_toJson, ParameterId.nullable?_toJson, mapScalars?]
  cases n.literals.mapM (Value.mapScalars? reread?) <;> rfl

/-- A graph is read as it was written, but for its scalars. -/
theorem Graph.ofJson?_toJson (g : Graph) : ofJson? g.toJson = g.mapScalars? reread? := by
  show (do
    return Graph.mk (← list? Node.ofJson? (.array (g.nodes.map Node.toJson)))
      (← list? Wire.ofJson? (.array (g.wires.map Wire.toJson)))
      (← list? Parameter.ofJson? (.array (g.parameters.map Parameter.toJson)))) =
    g.mapScalars? reread?
  rw [list?_map Node.ofJson?_toJson, list?_map_self Wire.ofJson?_toJson,
    list?_map Parameter.ofJson?_toJson]
  rfl

/-! ## Documents with a text -/

namespace Json

/-- A string can be written, since it is without unpaired surrogates. -/
@[simp]
theorem writable_str (s : String) : (str s).Writable :=
  .string s

/-- An array can be written exactly if each item can. -/
@[simp]
theorem writable_array_iff {items : List Json} :
    (array items).Writable ↔ ∀ j ∈ items, j.Writable := by
  refine ⟨fun h => ?_, .array⟩
  cases h with
  | array h => exact h

/-- An object with texts for keys can be written exactly if each member can. -/
@[simp]
theorem writable_obj_iff {members : List (String × Json)} :
    (obj members).Writable ↔ ∀ m ∈ members, m.2.Writable := by
  constructor
  · intro h m hm
    cases h with
    | object _ h => exact h _ (List.mem_map_of_mem hm)
  · intro h
    refine .object (fun entry hentry => ?_) (fun entry hentry => ?_)
    · obtain ⟨m, -, rfl⟩ := List.mem_map.1 hentry
      rfl
    · obtain ⟨m, hm, rfl⟩ := List.mem_map.1 hentry
      exact h m hm

/-- A number of 16 bits can be written, as every whole number can. -/
@[simp]
theorem writable_ofWord (n : UInt16) : (ofWord n).Writable :=
  writable_int n.toNat

end Json

/-- A value can be written, also if a scalar in it is not finite, for which `null` is written. -/
@[simp]
theorem Value.writable_toJson (v : Value) : v.toJson.Writable := by
  cases v with
  | bool b => simp [toJson, Writable.bool]
  | absent | integer | scalar | vector2 | vector3 | vector4 => simp [toJson]

/-- A node's number can be written. -/
@[simp]
theorem NodeId.writable_toJson (id : NodeId) : id.toJson.Writable :=
  writable_int id.value.toNat

/-- A parameter's number can be written. -/
@[simp]
theorem ParameterId.writable_toJson (id : ParameterId) : id.toJson.Writable :=
  writable_int id.value.toNat

/-- A port can be written, whatever its name is. -/
@[simp]
theorem Port.writable_toJson (p : Port) : p.toJson.Writable := by
  simp [toJson, Direction.toJson, ValueType.toJson]

/-- A wire can be written. Its tree consists of numbers and fixed keys. -/
@[simp]
theorem Wire.writable_toJson (w : Wire) : w.toJson.Writable := by
  simp [toJson, PortRef.toJson]

/-- A node can be written. Whether it has a parameter makes no difference, since `null` can be
written. -/
@[simp]
theorem Node.writable_toJson (n : Node) : n.toJson.Writable := by
  have hparameter : ((n.parameter.map ParameterId.toJson).getD .null).Writable := by
    cases n.parameter with
    | none => exact .null
    | some id => exact id.writable_toJson
  simp [toJson, OpCode.toJson, hparameter]

/-- A parameter can be written, by its number, its name and its value. -/
@[simp]
theorem Parameter.writable_toJson (p : Parameter) : p.toJson.Writable := by
  simp [toJson]

namespace Graph

/-- A graph can be written, so that saving never fails. -/
theorem writable_toJson (g : Graph) : g.toJson.Writable := by
  simp [toJson]

/-! ## Saving and loading -/

/-- What is loaded after a graph is saved is the graph with each scalar read from its own text.
Loading fails if one of them cannot be read. -/
theorem parse?_render (g : Graph) : parse? g.render = g.mapScalars? reread? := by
  rw [parse?, render, parse?_pretty g.writable_toJson]
  exact g.ofJson?_toJson

/-- A graph is loaded as it was saved exactly if each scalar is recovered from its own text. Nothing
else about a graph gets in the way, not even that it has a defect. -/
theorem parse?_render_eq_self_iff {g : Graph} :
    parse? g.render = some g ↔ ∀ x ∈ g.scalars, reread? x = some x := by
  rw [parse?_render, mapScalars?_eq_self_iff]

/-- If each scalar is recovered from its own text, a graph is loaded as it was saved. What is loaded
has the plan, or the defect, of the graph with every table of operations. -/
theorem loads_as_saved {g : Graph} (h : ∀ x ∈ g.scalars, reread? x = some x) :
    parse? g.render = some g ∧
      ∀ t : OpTable, (parse? g.render).map t.plan = some (t.plan g) := by
  have hself : parse? g.render = some g := parse?_render_eq_self_iff.2 h
  refine ⟨hself, fun t => ?_⟩
  rw [hself]
  rfl

/-- A graph with names that need escapes, with every kind of value, and with scalars at the ends of
their range. -/
def motley : Graph where
  nodes := [
    { id := ⟨1⟩, op := .constant .vector3,
      ports := [.output 0 "a \"quoted\" \\ name" .vector3],
      literals := [.vector3 ⟨0.1, -0.0, 16777216⟩] },
    { id := ⟨4294967295⟩, op := .parameter,
      ports := [.output 65535 "\u0000\u001f\t\n\u007f" .scalar],
      parameter := some ⟨7⟩ },
    { id := ⟨3⟩, op := .sink,
      ports := [.input 0 "größer als 😀" .vector3, .input 1 "" .scalar],
      literals := [.absent, .bool true, .integer (-2147483648), .scalar 1e-45,
        .vector2 ⟨3.4028235e38, -1.1754944e-38⟩, .vector4 ⟨0.3, 1e7, 123456.79, -1e-7⟩] }]
  wires := [⟨⟨⟨1⟩, 0⟩, ⟨⟨3⟩, 0⟩⟩, ⟨⟨⟨4294967295⟩, 65535⟩, ⟨⟨3⟩, 1⟩⟩]
  parameters := [⟨⟨7⟩, "\r/\u2028", .scalar 0.33333334⟩]

/-- All scalars of the graph are recovered, and the graph is loaded as it was saved. -/
theorem loads_as_saved_motley :
    (∀ x ∈ motley.scalars, reread? x = some x) ∧ parse? motley.render = some motley ∧
      ∀ t : OpTable, (parse? motley.render).map t.plan = some (t.plan motley) := by
  have hrecovered : ∀ x ∈ motley.scalars, reread? x = some x := by
    simp only [reread?_eq]
    decide +kernel
  exact ⟨hrecovered, loads_as_saved hrecovered⟩

/-- A graph that is saved can be loaded exactly if each scalar is finite. An infinity or what is no
number is written as `null`, which is not read as a scalar. The text of a finite scalar is always
read as some scalar; whether it is the same one is the matter of `parse?_render_eq_self_iff`. -/
theorem loads_again_iff (g : Graph) :
    (parse? g.render).isSome ↔ ∀ x ∈ g.scalars, x.isFinite := by
  simp only [parse?_render, isSome_mapScalars?, isSome_reread?, List.all_eq_true]

/-- A graph with a parameter beyond the range of scalars. It is what a document with too large a
number is read as. -/
def beyondRange : Graph where
  parameters := [⟨⟨1⟩, "p", .scalar (1 / 0)⟩]

/-- A number beyond the range of scalars is loaded as an infinity. What is saved then cannot be
loaded, so a graph that was loaded need not load again. -/
theorem not_loads_beyondRange :
    parse? ("\x7b\"parameters\":[\x7b\"id\":1,\"name\":\"p\"," ++
        "\"value\":\x7b\"Scalar\":1e39\x7d\x7d]\x7d") = some beyondRange ∧
      parse? beyondRange.render = none := by
  constructor
  · decide +kernel
  · rw [parse?_render]
    decide +kernel

end Graph

end NodeGraph
