import NodeGraph.Proofs.Graph.RoundTrip
import NodeGraph.Proofs.Json.Forms

/-!
# Presentations of a graph document

A graph document can be presented in many ways: with other blanks, its members in another order,
with unknown keys, with or without fields that hold their defaults, and with records as arrays. The
form of each part says which fields it has and which of them have defaults (`Graph.form`), and no
reader sees the edits that this allows. So all presentations of a document are read as the same
graph, or none is read as a graph: `Graph.parse?_eq_of_alike`.

The proof goes part by part, as the readers are made of each other. Readers of numbers and texts
take no containers, and only containers are edited. Readers of choices and values take containers of
a shape that no edit leads to or from. Readers of records are made of readers of their fields
(`Json.Form.readBy_record`).

A key without a text is no unknown key that could be added (`Graph.parse?_of_unpaired_key`): an
unpaired surrogate anywhere in the keys makes the document unreadable.
-/

namespace NodeGraph

open Json

/-! ## The forms of the parts -/

/-- The form of an operation. Family and kind have to be there. -/
def OpCode.form : Form :=
  .record [⟨"family", none, .plain⟩, ⟨"kind", none, .plain⟩]

/-- The form of one end of a wire. Neither the node nor the port has a default. -/
def PortRef.form : Form :=
  .record [⟨"node", none, .plain⟩, ⟨"port", none, .plain⟩]

/-- The form of a port, which has an empty name by default. Its direction and its type are
choices. -/
def Port.form : Form :=
  .record [⟨"id", none, .plain⟩, ⟨"name", some (.str ""), .plain⟩, ⟨"direction", none, .plain⟩,
    ⟨"ty", none, .plain⟩]

/-- The form of a node, which has no ports, no literals and no parameter by default. A parameter can
also be `null`, which is its default. -/
def Node.form : Form :=
  .record [⟨"id", none, .plain⟩, ⟨"op", none, OpCode.form⟩,
    ⟨"ports", some (.array []), .list Port.form⟩, ⟨"values", some (.array []), .list .plain⟩,
    ⟨"parameter", some .null, .plain⟩]

/-- The form of a wire, which has two ends. -/
def Wire.form : Form :=
  .record [⟨"from", none, PortRef.form⟩, ⟨"to", none, PortRef.form⟩]

/-- The form of a parameter. Its number, its name and its value have to be there. -/
def Parameter.form : Form :=
  .record [⟨"id", none, .plain⟩, ⟨"name", none, .plain⟩, ⟨"value", none, .plain⟩]

/-- The form of a whole document. A graph has no nodes, no wires and no parameters by default, so
that an empty object is the empty graph. -/
def Graph.form : Form :=
  .record [⟨"nodes", some (.array []), .list Node.form⟩,
    ⟨"connections", some (.array []), .list Wire.form⟩,
    ⟨"parameters", some (.array []), .list Parameter.form⟩]

/-! ## Readers of numbers and texts

None of them takes an array or an object, and nothing else is edited.
-/

variable {form : Form}

/-- A reader of words does not see edits, whatever the form. -/
theorem Json.readBy_word : form.ReadBy word? :=
  Form.readBy_of_eq_none (fun _ => rfl) fun _ => rfl

/-- A reader of texts takes strings only, and strings are not edited. -/
theorem Json.readBy_text : form.ReadBy Json.text? :=
  Form.readBy_of_eq_none (fun _ => rfl) fun _ => rfl

/-- A node's number is a single word, without a container around it. -/
theorem NodeId.readBy : form.ReadBy NodeId.ofJson? :=
  Form.readBy_of_eq_none (fun _ => rfl) fun _ => rfl

/-- A parameter's number is a single word like a node's. -/
theorem ParameterId.readBy : form.ReadBy ParameterId.ofJson? :=
  Form.readBy_of_eq_none (fun _ => rfl) fun _ => rfl

/-! ## Readers of choices and values

Both take objects with one member, whose order cannot be changed.
-/

/-- An edit where no form is known is one inside an array, one of the only member of an object, or
one of an object that has not one member. These are the cases that a reader of choices or values
tells apart. -/
theorem Json.Form.Edit.plain_cases {j k : Json} (h : Form.plain.Edit j k) :
    (∃ before v v' after, j = .array (before ++ v :: after) ∧ k = .array (before ++ v' :: after) ∧
      Form.plain.Edit v v') ∨
    (∃ key v v', j = .object [(key, v)] ∧ k = .object [(key, v')] ∧
      (v = v' ∨ Form.plain.Edit v v')) ∨
    ∃ ms ms', j = .object ms ∧ k = .object ms' ∧ ms.length ≠ 1 ∧ ms'.length ≠ 1 := by
  cases h with
  | @inItem _ before after v v' h => exact .inl ⟨before, v, v', after, rfl, rfl, h⟩
  | @permute _ ms ms' h =>
    by_cases hlength : ms.length = 1
    · obtain ⟨⟨key, v⟩, rfl⟩ := List.length_eq_one_iff.1 hlength
      cases List.singleton_perm.1 h
      exact .inr (.inl ⟨key, v, v, rfl, rfl, .inl rfl⟩)
    · exact .inr (.inr ⟨ms, ms', rfl, rfl, hlength, h.length_eq ▸ hlength⟩)
  | @inMember _ before after key v v' h =>
    by_cases houtside : before = [] ∧ after = []
    · obtain ⟨rfl, rfl⟩ := houtside
      exact .inr (.inl ⟨key, v, v', rfl, rfl, .inr h⟩)
    · have hlength : ∀ w : Json, (before ++ (key, w) :: after).length ≠ 1 := by
        intro w hone
        rw [List.length_append, List.length_cons] at hone
        exact houtside ⟨List.length_eq_zero_iff.1 (by omega), List.length_eq_zero_iff.1 (by omega)⟩
      exact .inr (.inr ⟨_, _, rfl, rfl, hlength v, hlength v'⟩)

/-- A choice is not made of an object with another number of members than one. Adding or moving
members does not lead to a choice, nor away from it. -/
theorem Json.choice?_of_length_ne_one {ms : List (Text × Json)} (h : ms.length ≠ 1) :
    (Json.object ms).choice? = none := by
  unfold choice?
  split <;> simp_all

/-- A choice does not stand over a container. Where its member is edited, there is no choice on both
sides. -/
theorem Json.choice?_of_isContainer {key : Text} {v : Json} (h : v.isContainer) :
    (Json.object [(key, v)]).choice? = none := by
  cases v with
  | array items => cases key <;> rfl
  | object members => cases key <;> rfl
  | _ => cases h

/-- A reader of a choice does not see edits. Only the order of a single member could change, and
that is no change. -/
theorem Json.readBy_choice {α : Type} (make? : String → Option α) :
    Form.plain.ReadBy fun j => j.choice?.bind make? := by
  intro j k hedit
  refine congrArg (Option.bind · make?) ?_
  rcases hedit.plain_cases with ⟨_, _, _, _, rfl, rfl, _⟩ | ⟨key, v, v', rfl, rfl, heq | hv⟩ |
    ⟨ms, ms', rfl, rfl, hms, hms'⟩
  · rfl
  · rw [heq]
  · rw [choice?_of_isContainer hv.isContainer.1, choice?_of_isContainer hv.isContainer.2]
  · rw [choice?_of_length_ne_one hms, choice?_of_length_ne_one hms']

namespace Value

/-- An array that holds something else than scalars is no data of a value. The types that are no
vectors take no arrays at all. -/
theorem payloadOfJson?_array {items : List Json} {v : Json} (hv : v ∈ items)
    (hnone : Json.scalar? v = none) (ty : ValueType) :
    payloadOfJson? Json.scalar? ty (.array items) = none := by
  cases ty with
  | bool => rfl
  | integer => rfl
  | scalar => rfl
  | vector2 | vector3 | vector4 =>
    unfold payloadOfJson?
    split <;> simp_all
    grind

/-- What is edited is no data of a value, neither before nor after. An edited item of a vector is a
container, and containers are no scalars. -/
theorem payloadOfJson?_of_edit {j k : Json} (h : Form.plain.Edit j k) (ty : ValueType) :
    payloadOfJson? Json.scalar? ty j = none ∧ payloadOfJson? Json.scalar? ty k = none := by
  have hobject : ∀ ms, payloadOfJson? Json.scalar? ty (.object ms) = none := by
    intro ms
    cases ty <;> rfl
  have hscalar : ∀ {v : Json}, v.isContainer → Json.scalar? v = none := by
    intro v hv
    cases v with
    | array items => rfl
    | object members => rfl
    | _ => cases hv
  rcases h.plain_cases with ⟨before, v, v', after, rfl, rfl, hv⟩ | ⟨_, _, _, rfl, rfl, _⟩ |
    ⟨_, _, rfl, rfl, _⟩
  · have hmem : ∀ w : Json, w ∈ before ++ w :: after :=
      fun w => List.mem_append_right _ List.mem_cons_self
    exact ⟨payloadOfJson?_array (hmem v) (hscalar hv.isContainer.1) ty,
      payloadOfJson?_array (hmem v') (hscalar hv.isContainer.2) ty⟩
  · exact ⟨hobject _, hobject _⟩
  · exact ⟨hobject _, hobject _⟩

/-- A value is not read of an object with another number of members than one. -/
theorem ofJson?_of_length_ne_one {ms : List (Text × Json)} (h : ms.length ≠ 1) :
    ofJson? (.object ms) = none := by
  unfold ofJson? ofJsonWith?
  split <;> simp_all

/-- A value is not read of an object whose only member is edited, since the member is no data of any
type. -/
theorem ofJson?_of_edit {key : Text} {v v' : Json} (h : Form.plain.Edit v v') :
    ofJson? (.object [(key, v)]) = none ∧ ofJson? (.object [(key, v')]) = none := by
  have hread : ∀ {w : Json}, w.isContainer →
      (∀ ty, payloadOfJson? Json.scalar? ty w = none) → ofJson? (.object [(key, w)]) = none := by
    intro w hw hnone
    unfold ofJson? ofJsonWith?
    split
    · rename_i heq
      cases heq
    · rename_i heq
      cases heq
      cases hw
    · rename_i name _ _ heq
      cases heq
      cases ValueType.ofName? name with
      | none => rfl
      | some ty => exact hnone ty
    · rfl
  exact ⟨hread h.isContainer.1 fun ty => (payloadOfJson?_of_edit h ty).1,
    hread h.isContainer.2 fun ty => (payloadOfJson?_of_edit h ty).2⟩

/-- A reader of values does not see edits, of which there are only such as make no value of what was
none. -/
theorem readBy : Form.plain.ReadBy Value.ofJson? := by
  intro j k hedit
  rcases hedit.plain_cases with ⟨_, _, _, _, rfl, rfl, _⟩ | ⟨key, v, v', rfl, rfl, heq | hv⟩ |
    ⟨ms, ms', rfl, rfl, hms, hms'⟩
  · rfl
  · rw [heq]
  · rw [(ofJson?_of_edit hv).1, (ofJson?_of_edit hv).2]
  · rw [ofJson?_of_length_ne_one hms, ofJson?_of_length_ne_one hms']

end Value

/-- A direction is a choice of two. -/
theorem Direction.readBy : Form.plain.ReadBy Direction.ofJson? :=
  readBy_choice _

/-- A type is a choice of six. -/
theorem ValueType.readBy : Form.plain.ReadBy ValueType.ofJson? :=
  readBy_choice _

/-! ## Readers of the parts

Each reads the fields of a record, and the reader of a field does not see edits of it.
-/

/-- A reader of operations does not see edits, such as writing the two numbers as an array. -/
theorem OpCode.readBy : OpCode.form.ReadBy OpCode.ofJson? := by
  refine Form.readBy_record (by decide) ?_
  rintro _ _ (_ | ⟨hfamily, _ | ⟨hkind, _ | _⟩⟩)
  simp only [Field.readBy_required readBy_word hfamily, Field.readBy_required readBy_word hkind]

/-- A reader of a wire's ends does not see edits. -/
theorem PortRef.readBy : PortRef.form.ReadBy PortRef.ofJson? := by
  refine Form.readBy_record (by decide) ?_
  rintro _ _ (_ | ⟨hnode, _ | ⟨hport, _ | _⟩⟩)
  simp only [Field.readBy_required NodeId.readBy hnode, Field.readBy_required readBy_word hport]

/-- A reader of ports does not see edits. That the name is empty by default agrees with the form. -/
theorem Port.readBy : Port.form.ReadBy Port.ofJson? := by
  refine Form.readBy_record (by decide) ?_
  rintro _ _ (_ | ⟨hid, _ | ⟨hname, _ | ⟨hdirection, _ | ⟨htype, _ | _⟩⟩⟩⟩)
  simp only [Field.readBy_required readBy_word hid,
    Field.readBy_optional "" readBy_text rfl hname,
    Field.readBy_required Direction.readBy hdirection,
    Field.readBy_required ValueType.readBy htype]

/-- A reader of nodes does not see edits, neither of the node's own fields nor of those of its
operation, its ports and its literals. -/
theorem Node.readBy : Node.form.ReadBy Node.ofJson? := by
  refine Form.readBy_record (by decide) ?_
  rintro _ _ (_ | ⟨hid, _ | ⟨hop, _ | ⟨hports, _ | ⟨hliterals, _ | ⟨hparameter, _ | _⟩⟩⟩⟩⟩)
  simp only [Field.readBy_required NodeId.readBy hid, Field.readBy_required OpCode.readBy hop,
    Field.readBy_optional [] (Form.readBy_list Port.readBy) rfl hports,
    Field.readBy_optional [] (Form.readBy_list Value.readBy) rfl hliterals,
    Field.readBy_nullable ParameterId.readBy hparameter]

/-- A reader of wires does not see edits of either end. -/
theorem Wire.readBy : Wire.form.ReadBy Wire.ofJson? := by
  refine Form.readBy_record (by decide) ?_
  rintro _ _ (_ | ⟨hsource, _ | ⟨htarget, _ | _⟩⟩)
  simp only [Field.readBy_required PortRef.readBy hsource,
    Field.readBy_required PortRef.readBy htarget]

/-- A reader of parameters does not see edits. What is edited in a value is no value before and
after. -/
theorem Parameter.readBy : Parameter.form.ReadBy Parameter.ofJson? := by
  refine Form.readBy_record (by decide) ?_
  rintro _ _ (_ | ⟨hid, _ | ⟨hname, _ | ⟨hvalue, _ | _⟩⟩⟩)
  simp only [Field.readBy_required ParameterId.readBy hid,
    Field.readBy_required readBy_text hname, Field.readBy_required Value.readBy hvalue]

/-- A reader of graphs does not see edits, wherever in the document they are. -/
theorem Graph.readBy : Graph.form.ReadBy Graph.ofJson? := by
  refine Form.readBy_record (by decide) ?_
  rintro _ _ (_ | ⟨hnodes, _ | ⟨hwires, _ | ⟨hparameters, _ | _⟩⟩⟩)
  simp only [Field.readBy_optional [] (Form.readBy_list Node.readBy) rfl hnodes,
    Field.readBy_optional [] (Form.readBy_list Wire.readBy) rfl hwires,
    Field.readBy_optional [] (Form.readBy_list Parameter.readBy) rfl hparameters]

/-! ## Texts of a document -/

/-- Texts of documents that differ by edits only are read as the same graph, or none is read as a
graph. How the documents are written does not matter either: there may be any blanks, and strings
may have any escapes. -/
theorem Graph.parse?_eq_of_alike {j k : Json} {text text' : String} (hj : j.Written text)
    (hk : k.Written text') (h : Graph.form.Alike j k) : Graph.parse? text = Graph.parse? text' := by
  rw [Graph.parse?, Graph.parse?, hj.parse?_eq, hk.parse?_eq]
  exact Graph.readBy.eq_of_alike h

/-- A document with a node by the fields that it needs, its operation by position. -/
def Graph.terse : Json :=
  .obj [("nodes", .array [.obj [("id", .int 7), ("op", .array [.int 2, .int 1])]])]

/-- The same document with the fields in another order, a default and an unknown key. -/
def Graph.verbose : Json :=
  .obj [("note", .null), ("connections", .array []),
    ("nodes", .array [.obj [("op", .obj [("family", .int 2), ("kind", .int 1)]), ("id", .int 7)]])]

/-- Four edits lead from the one document to the other: an order, a record for an array, a default
and an unknown key. -/
theorem Graph.alike_terse_verbose : Graph.form.Alike Graph.terse Graph.verbose := by
  have hnode : ∀ {n n' : Json}, Node.form.Edit n n' →
      Graph.form.Edit (.obj [("nodes", .array [n])]) (.obj [("nodes", .array [n'])]) :=
    fun h => @Form.Edit.inMember Graph.form [] [] (some "nodes") _ _
      (@Form.Edit.inItem (.list Node.form) [] [] _ _ h)
  have horder := hnode
    (.permute (.swap (some "op", .array [.int 2, .int 1]) (some "id", .int 7) []))
  have hposition : OpCode.form.Edit (.obj [("family", .int 2), ("kind", .int 1)])
      (.array [.int 2, .int 1]) :=
    @Form.Edit.positional [⟨"family", none, .plain⟩, ⟨"kind", none, .plain⟩] [.int 2, .int 1] rfl
  have hop := hnode
    (@Form.Edit.inMember Node.form [] [(some "id", .int 7)] (some "op") _ _ hposition)
  have hdefault : ∀ v, Graph.form.Edit (.obj [("nodes", v)])
      (.obj [("connections", .array []), ("nodes", v)]) := by
    intro v
    refine @Form.Edit.supply _ [(some "nodes", v)]
      ⟨"connections", some (.array []), .list Wire.form⟩ _
      (List.mem_cons_of_mem _ List.mem_cons_self) rfl fun m hm => ?_
    cases List.mem_singleton.1 hm
    show some "nodes" ≠ some "connections"
    decide
  have hunknown : Graph.form.Edit _ Graph.verbose := @Form.Edit.unknown _ _ "note" .null (by decide)
  exact .trans _ _ _ (.rel _ _ horder) (.trans _ _ _ (.symm _ _ (.rel _ _ hop))
    (.trans _ _ _ (.rel _ _ (hdefault _)) (.rel _ _ hunknown)))

/-- The one document without blanks and the other one as the printer writes it are read as the same
graph. -/
theorem Graph.parse?_eq_of_alike_verbose :
    Graph.terse.Written "\x7b\"nodes\":[\x7b\"id\":7,\"op\":[2,1]\x7d]\x7d" ∧
    Graph.verbose.Written Graph.verbose.pretty ∧ Graph.form.Alike Graph.terse Graph.verbose ∧
    Graph.parse? "\x7b\"nodes\":[\x7b\"id\":7,\"op\":[2,1]\x7d]\x7d" =
      Graph.parse? Graph.verbose.pretty ∧
    (Graph.parse? Graph.verbose.pretty).isSome := by
  have hnumber : ∀ n : Int, Token.Spells (.number (.ofInt n)) ((Numeral.ofInt n).chars true) := by
    intro n
    cases writable_int n with
    | number h => exact .number (Numeral.spells_chars h)
  have hterse : Graph.terse.Written "\x7b\"nodes\":[\x7b\"id\":7,\"op\":[2,1]\x7d]\x7d" :=
    .token .openBrace (.token (Token.spells_quote "nodes") (.token .colon (.token .openBracket
      (.token .openBrace (.token (Token.spells_quote "id") (.token .colon (.token (hnumber 7)
      (.token .comma (.token (Token.spells_quote "op") (.token .colon (.token .openBracket
      (.token (hnumber 2) (.token .comma (.token (hnumber 1) (.token .closeBracket
      (.token .closeBrace (.token .closeBracket (.token .closeBrace .nil))))))))))))))))))
  have hverbose : Graph.verbose.Written Graph.verbose.pretty :=
    written_pretty (by simp [Graph.verbose, Writable.null])
  refine ⟨hterse, hverbose, Graph.alike_terse_verbose,
    Graph.parse?_eq_of_alike hterse hverbose Graph.alike_terse_verbose, ?_⟩
  rw [Graph.parse?, hverbose.parse?_eq]
  decide +kernel

/-- A key that has no text is not ignored: with it the empty document cannot be read any more. -/
theorem Graph.parse?_of_unpaired_key :
    (Json.object []).Written "\x7b\x7d" ∧
    (Json.object [(none, .int 1)]).Written "\x7b\"\\ud800\":1\x7d" ∧
    Graph.parse? "\x7b\x7d" = some {} ∧ Graph.parse? "\x7b\"\\ud800\":1\x7d" = none := by
  have hempty : (Json.object []).Written "\x7b\x7d" :=
    .token .openBrace (.token .closeBrace .nil)
  have hkey : Token.Spells (.string none) ['"', '\\', 'u', 'd', '8', '0', '0', '"'] :=
    @Token.Spells.string [.unit 0xD800] _ (.cons (.unit (by decide)) .nil)
  have hone : Token.Spells (.number (.ofInt 1)) ['1'] := by
    cases writable_int 1 with
    | number h => exact .number (Numeral.spells_chars h)
  have hunpaired : (Json.object [(none, .int 1)]).Written "\x7b\"\\ud800\":1\x7d" :=
    .token .openBrace (.token hkey (.token .colon (.token hone (.token .closeBrace .nil))))
  refine ⟨hempty, hunpaired, ?_, ?_⟩
  · rw [Graph.parse?, hempty.parse?_eq]
    rfl
  · rw [Graph.parse?, hunpaired.parse?_eq]
    rfl

end NodeGraph
