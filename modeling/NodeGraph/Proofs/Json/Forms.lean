import Mathlib.Data.List.Nodup
import Mathlib.Logic.Relation
import NodeGraph.Json.Record

/-!
# Forms of documents

A form says what a place in a document holds: a list, a record with its fields, or anything else
(`Json.Form`). Given the form, one document can be presented in several ways, which differ by edits
(`Json.Form.Edit`). An edit of a record changes each of the fields that are read of it at most once
(`Json.Form.Edit.readAlike`), so that a reader made of readers of the fields does not see edits if
these do not (`Json.Form.readBy_record`).

All readers of records first take the fields, by `Json.fields?`, and then make something of them. It
is enough to know of each edit what it does to the fields: nothing, an edit of one of them, or a
default for one that was not there (`Json.Field.Alike`). There is a lemma `readAlike_…` for each
kind of edit.
-/

namespace NodeGraph.Json

/-- A field of a record: its name, what it holds where it is left out, unless it has to be there,
and its form. -/
structure Field (φ : Type) where
  name : String
  default? : Option Json
  form : φ

/-- What is known of the documents at a place. Nothing is known at a `plain` one, where only the
order of members can change. -/
inductive Form where
  | plain
  | list (item : Form)
  | record (fields : List (Field Form))

/-- Whether a document is an array or an object. Only these can be edited. -/
def isContainer : Json → Bool
  | .array _ | .object _ => true
  | _ => false

namespace Form

/-- The form of a member of an object. Nothing is known of a member that is no field. -/
def member : Form → Text → Form
  | .record fields, key => ((fields.find? fun f => some f.name = key).map (·.form)).getD .plain
  | _, _ => .plain

/-- The form of the item of an array at an index. The items of a record are its fields in order. -/
def item : Form → Nat → Form
  | .plain, _ => .plain
  | .list item, _ => item
  | .record fields, i => (fields[i]?.map (·.form)).getD .plain

/-- One change of how a document is presented. It can be anywhere in the document. -/
inductive Edit : Form → Json → Json → Prop
  /-- Members can come in another order, of a record or of any other object. -/
  | permute {form : Form} {ms ms' : List (Text × Json)} (h : ms.Perm ms') :
      Edit form (.object ms) (.object ms')
  /-- A member can be edited, according to its own form. -/
  | inMember {form : Form} {before after : List (Text × Json)} {key : Text} {v v' : Json}
      (h : Edit (form.member key) v v') :
      Edit form (.object (before ++ (key, v) :: after)) (.object (before ++ (key, v') :: after))
  /-- An item can be edited, according to its own form. -/
  | inItem {form : Form} {before after : List Json} {v v' : Json}
      (h : Edit (form.item before.length) v v') :
      Edit form (.array (before ++ v :: after)) (.array (before ++ v' :: after))
  /-- A key that is no field's name can be added to a record, with anything as its value. -/
  | unknown {fields : List (Field Form)} {ms : List (Text × Json)} {key : String} (v : Json)
      (hkey : ∀ f ∈ fields, f.name ≠ key) :
      Edit (.record fields) (.object ms) (.object ((some key, v) :: ms))
  /-- A field that is left out can be supplied with its default, if it has one. -/
  | supply {fields : List (Field Form)} {ms : List (Text × Json)} {f : Field Form} {v : Json}
      (hf : f ∈ fields) (hdefault : f.default? = some v) (hout : ∀ m ∈ ms, m.1 ≠ some f.name) :
      Edit (.record fields) (.object ms) (.object ((some f.name, v) :: ms))
  /-- A field that is left out at the end of an array can be supplied with its default. -/
  | supplyLast {fields : List (Field Form)} {items : List Json} {f : Field Form} {v : Json}
      (hf : fields[items.length]? = some f) (hdefault : f.default? = some v) :
      Edit (.record fields) (.array items) (.array (items ++ [v]))
  /-- A record can be written as the array of its fields, all of them and in order. -/
  | positional {fields : List (Field Form)} {values : List Json}
      (h : values.length = fields.length) :
      Edit (.record fields) (.object ((fields.map fun f => some f.name).zip values)) (.array values)

/-- Two documents differ by edits only, made in either direction and any number of times. -/
def Alike (form : Form) : Json → Json → Prop :=
  Relation.EqvGen form.Edit

/-- A reader does not see edits: it reads the same of a document before and after one. -/
def ReadBy {α : Type} (form : Form) (read? : Json → Option α) : Prop :=
  ∀ {j k : Json}, form.Edit j k → read? j = read? k

end Form

namespace Field

/-- What one edit of a record makes of a field: nothing, an edit of what it holds, or the default in
place of nothing. -/
inductive Alike (f : Field Form) : Option Json → Option Json → Prop
  | same (v : Option Json) : Alike f v v
  | edited {v v' : Json} (h : f.form.Edit v v') : Alike f (some v) (some v')
  | supplied {v : Json} (h : f.default? = some v) : Alike f none (some v)

/-- What one edit of a record makes of all its fields, of which several may change. -/
inductive AllAlike : List (Field Form) → List (Option Json) → List (Option Json) → Prop
  | nil : AllAlike [] [] []
  | cons {f : Field Form} {fields : List (Field Form)} {a b : Option Json}
      {as bs : List (Option Json)} (h : f.Alike a b) (hs : AllAlike fields as bs) :
      AllAlike (f :: fields) (a :: as) (b :: bs)

/-- What is read of the fields of two documents is alike, or nothing is read of both. The fields are
read by their names only. -/
def ReadAlike (fields : List (Field Form)) (j k : Json) : Prop :=
  Option.Rel (AllAlike fields) (j.fields? (fields.map (·.name))) (k.fields? (fields.map (·.name)))

/-- A reader of a field does not see edits, nor whether a default is written out. -/
def ReadBy {α : Type} (f : Field Form) (read? : Option Json → Option α) : Prop :=
  ∀ {a b : Option Json}, f.Alike a b → read? a = read? b

end Field

variable {fields : List (Field Form)} {f : Field Form} {ms ms' : List (Text × Json)}

/-! ## What edits make of a record's fields -/

namespace Field

/-- Fields are alike if they are one by one. For arrays this is how it is shown. -/
theorem allAlike_of_getElem? {as bs : List (Option Json)} (has : as.length = fields.length)
    (hbs : bs.length = fields.length)
    (h : ∀ (i : Nat) (f : Field Form) a b, fields[i]? = some f → as[i]? = some a →
      bs[i]? = some b → f.Alike a b) :
    AllAlike fields as bs := by
  induction fields generalizing as bs with
  | nil =>
    cases List.length_eq_zero_iff.1 has
    cases List.length_eq_zero_iff.1 hbs
    exact .nil
  | cons f fields ih =>
    obtain ⟨a, as, rfl⟩ := List.exists_cons_of_length_eq_add_one has
    obtain ⟨b, bs, rfl⟩ := List.exists_cons_of_length_eq_add_one hbs
    exact .cons (h 0 f a b rfl rfl rfl)
      (ih (Nat.succ.inj has) (Nat.succ.inj hbs) fun i => h (i + 1))

/-- Fields are alike if they are as looked up by name. For objects this is how it is shown. -/
theorem allAlike_map {get get' : Field Form → Option Json}
    (h : ∀ f ∈ fields, f.Alike (get f) (get' f)) :
    AllAlike fields (fields.map get) (fields.map get') := by
  induction fields with
  | nil => exact .nil
  | cons f fields ih =>
    obtain ⟨hf, hfields⟩ := List.forall_mem_cons.1 h
    exact .cons hf (ih hfields)

end Field

namespace Form

/-- The form of the member with a field's name is the field's, if names are distinct. -/
theorem member_record (hnames : (fields.map (·.name)).Nodup) (hf : f ∈ fields) :
    (Form.record fields).member (some f.name) = f.form := by
  obtain ⟨g, hg⟩ : ∃ g, fields.find? (fun g => some g.name = some f.name) = some g :=
    Option.isSome_iff_exists.1 (List.find?_isSome.2 ⟨f, hf, by simp⟩)
  have hname : g.name = f.name := by simpa using List.find?_some hg
  have heq : g = f :=
    List.inj_on_of_nodup_map hnames (List.mem_of_find?_eq_some hg) hf hname
  rw [member, hg, heq]
  rfl

/-- The fields of two objects are alike if the same keys have texts and occur once, and members of
one name are alike. A key without a text, or a field that is there twice, makes both unreadable. -/
theorem readAlike_object (hkeys : ms.all (·.1.isSome) = ms'.all (·.1.isSome))
    (honce : ∀ f ∈ fields, occursOnce ms f.name = occursOnce ms' f.name)
    (hmember : (∀ f ∈ fields, occursOnce ms f.name) → ∀ f ∈ fields,
      f.Alike ((Json.object ms).member? f.name) ((Json.object ms').member? f.name)) :
    Field.ReadAlike fields (.object ms) (.object ms') := by
  have hall : (fields.map (·.name)).all (occursOnce ms) =
      (fields.map (·.name)).all (occursOnce ms') := by
    rw [List.all_map, List.all_map, Bool.eq_iff_iff, List.all_eq_true, List.all_eq_true]
    exact forall₂_congr fun f hf => by rw [Function.comp, Function.comp, honce f hf]
  rw [Field.ReadAlike, fields?, fields?, hkeys, hall, List.map_map, List.map_map]
  split
  · rename_i hread
    rw [← hall, Bool.and_eq_true, List.all_map] at hread
    exact .some (Field.allAlike_map (hmember (List.all_eq_true.1 hread.2)))
  · exact .none

/-- How often a name occurs depends on the keys alone, and neither on the values nor on the order of
members. -/
theorem occursOnce_eq (ms : List (Text × Json)) (name : String) :
    occursOnce ms name = decide ((ms.map (·.1)).count (some name) ≤ 1) := by
  rw [occursOnce, List.count, List.countP_map, ← List.countP_eq_length_filter]
  simp only [Function.comp_def, beq_eq_decide]

/-- Members of other names do not matter for what a field holds. -/
theorem member?_cons_of_ne {key : Text} {v : Json} {name : String} (h : key ≠ some name) :
    (Json.object ((key, v) :: ms)).member? name = (Json.object ms).member? name := by
  rw [member?, member?, List.find?_cons_of_neg (by simpa using h)]

/-- The order of members does not matter for names that occur once. Of two members with one name the
first would count. -/
theorem member?_of_perm {name : String} (h : ms.Perm ms') (honce : occursOnce ms name) :
    (Json.object ms).member? name = (Json.object ms').member? name := by
  have hperm : (ms.filter (·.1 = some name)).Perm (ms'.filter (·.1 = some name)) := h.filter _
  have hlength : (ms.filter (·.1 = some name)).length ≤ 1 := of_decide_eq_true honce
  have heq : ms.filter (·.1 = some name) = ms'.filter (·.1 = some name) := by
    generalize ms.filter (·.1 = some name) = l at hperm hlength
    cases l with
    | nil => exact hperm.nil_eq
    | cons m l =>
      cases List.length_eq_zero_iff.1 (Nat.le_zero.1 (Nat.le_of_succ_le_succ hlength))
      exact List.singleton_perm.1 hperm
  rw [member?, member?, ← List.head?_filter, ← List.head?_filter, heq]

/-- The fields of an object change with its members by at most one edit of each. -/
theorem readAlike_inMember (hnames : (fields.map (·.name)).Nodup)
    {before after : List (Text × Json)} {key : Text} {v v' : Json}
    (h : ((Form.record fields).member key).Edit v v') :
    Field.ReadAlike fields (.object (before ++ (key, v) :: after))
      (.object (before ++ (key, v') :: after)) := by
  refine readAlike_object ?_ (fun f _ => ?_) fun _ f hf => ?_
  · rw [List.all_append, List.all_append, List.all_cons, List.all_cons]
  · rw [occursOnce_eq, occursOnce_eq, List.map_append, List.map_append, List.map_cons,
      List.map_cons]
  · simp only [member?, List.find?_append]
    cases hfirst : before.find? (·.1 = some f.name) with
    | some m => exact .same _
    | none =>
      by_cases hkey : key = some f.name
      · subst hkey
        rw [member_record hnames hf] at h
        simpa using Field.Alike.edited h
      · rw [List.find?_cons_of_neg (by simpa using hkey),
          List.find?_cons_of_neg (by simpa using hkey)]
        exact .same _

/-- Supplying a field that is left out changes this field alone. It then occurs once, since it did
not before. -/
theorem readAlike_supply (hnames : (fields.map (·.name)).Nodup) {v : Json} (hf : f ∈ fields)
    (hdefault : f.default? = some v) (hout : ∀ m ∈ ms, m.1 ≠ some f.name) :
    Field.ReadAlike fields (.object ms) (.object ((some f.name, v) :: ms)) := by
  have hcount : (ms.map (·.1)).count (some f.name) = 0 := by
    refine List.count_eq_zero.2 fun hmem => ?_
    obtain ⟨m, hm, heq⟩ := List.mem_map.1 hmem
    exact hout m hm heq
  have hnone : ms.find? (·.1 = some f.name) = none :=
    List.find?_eq_none.2 fun m hm => by simpa using hout m hm
  refine readAlike_object rfl (fun g hg => ?_) fun _ g hg => ?_
  · rw [occursOnce_eq, occursOnce_eq, List.map_cons]
    by_cases hname : f.name = g.name
    · rw [← hname, List.count_cons_self, hcount]
      rfl
    · rw [List.count_cons_of_ne fun heq => hname (Option.some.inj heq)]
  · by_cases hname : f.name = g.name
    · cases List.inj_on_of_nodup_map hnames hf hg hname
      simpa [member?, hnone] using Field.Alike.supplied hdefault
    · rw [member?_cons_of_ne fun heq => hname (Option.some.inj heq)]
      exact .same _

/-- An array's item is the field at its index, and fields beyond its end are left out. -/
theorem getElem?_fields?_array {items : List Json} {n i : Nat} (h : items.length ≤ n) (hi : i < n) :
    (items.map some ++ List.replicate (n - items.length) none)[i]? = some items[i]? := by
  rcases Nat.lt_or_ge i items.length with hlt | hge
  · rw [List.getElem?_append_left (by simpa using hlt), List.getElem?_map,
      List.getElem?_eq_getElem hlt]
    rfl
  · rw [List.getElem?_append_right (by simpa using hge), List.getElem?_eq_none hge, List.length_map,
      List.getElem?_replicate, if_pos (by omega)]

/-- The fields of two arrays are alike if both are short enough or both too long, and items at one
index are alike. -/
theorem readAlike_array {items items' : List Json}
    (hlength : items.length ≤ fields.length ↔ items'.length ≤ fields.length)
    (h : ∀ (i : Nat) (f : Field Form), fields[i]? = some f → f.Alike items[i]? items'[i]?) :
    Field.ReadAlike fields (.array items) (.array items') := by
  rw [Field.ReadAlike, fields?, fields?, List.length_map]
  by_cases hle : items.length ≤ fields.length
  · have hle' := hlength.1 hle
    rw [if_pos hle, if_pos hle']
    refine .some (Field.allAlike_of_getElem? ?_ ?_ fun i f a b hf ha hb => ?_)
    · simp only [List.length_append, List.length_map, List.length_replicate]
      omega
    · simp only [List.length_append, List.length_map, List.length_replicate]
      omega
    · have hi : i < fields.length := (List.getElem?_eq_some_iff.1 hf).1
      rw [getElem?_fields?_array hle hi] at ha
      rw [getElem?_fields?_array hle' hi] at hb
      cases ha
      cases hb
      exact h i f hf
  · rw [if_neg hle, if_neg fun hle' => hle (hlength.2 hle')]
    exact .none

/-- An edit of an item changes the field at its index alone, and keeps the length of the array. -/
theorem readAlike_inItem {before after : List Json} {v v' : Json}
    (h : ((Form.record fields).item before.length).Edit v v') :
    Field.ReadAlike fields (.array (before ++ v :: after)) (.array (before ++ v' :: after)) := by
  refine readAlike_array (by simp) fun i f hf => ?_
  rcases Nat.lt_trichotomy i before.length with hi | rfl | hi
  · rw [List.getElem?_append_left hi, List.getElem?_append_left hi]
    exact .same _
  · rw [item, hf] at h
    simpa using Field.Alike.edited h
  · obtain ⟨n, rfl⟩ := Nat.exists_eq_add_of_lt hi
    rw [List.getElem?_append_right (by omega), List.getElem?_append_right (by omega), Nat.add_assoc,
      Nat.add_sub_cancel_left, List.getElem?_cons_succ, List.getElem?_cons_succ]
    exact .same _

/-- Supplying a field that is left out at the end changes this field alone, and the array does not
become too long by it. -/
theorem readAlike_supplyLast {items : List Json} {v : Json}
    (hf : fields[items.length]? = some f) (hdefault : f.default? = some v) :
    Field.ReadAlike fields (.array items) (.array (items ++ [v])) := by
  have hlt : items.length < fields.length := (List.getElem?_eq_some_iff.1 hf).1
  have hlength : (items ++ [v]).length = items.length + 1 := List.length_append
  refine readAlike_array (by omega) fun i g hg => ?_
  rcases Nat.lt_trichotomy i items.length with hi | rfl | hi
  · rw [List.getElem?_append_left hi]
    exact .same _
  · cases hf.symm.trans hg
    simpa using Field.Alike.supplied hdefault
  · rw [List.getElem?_eq_none (Nat.le_of_lt hi), List.getElem?_eq_none (by omega)]
    exact .same _

/-- An object with one member for each name has these members in their order. -/
theorem map_member?_zip {names : List String} (hnames : names.Nodup) {values : List Json}
    (h : values.length = names.length) :
    (names.map fun name => (Json.object ((names.map some).zip values)).member? name) =
      values.map some := by
  induction names generalizing values with
  | nil =>
    cases List.length_eq_zero_iff.1 h
    rfl
  | cons name names ih =>
    obtain ⟨v, values, rfl⟩ := List.exists_cons_of_length_eq_add_one h
    obtain ⟨hname, hnames⟩ := List.nodup_cons.1 hnames
    rw [List.map_cons, List.map_cons, List.map_cons, List.zip_cons_cons,
      ← ih hnames (Nat.succ.inj h)]
    refine congrArg₂ List.cons (by simp [member?]) (List.map_congr_left fun name' hname' => ?_)
    exact member?_cons_of_ne fun heq => hname (Option.some.inj heq ▸ hname')

/-- An object with one member for each name has every name once. -/
theorem occursOnce_zip {names : List String} (hnames : names.Nodup) {values : List Json}
    (h : values.length = names.length) (name : String) :
    occursOnce ((names.map some).zip values) name := by
  have hkeys : (names.map some).Nodup := hnames.map fun _ _ heq => Option.some.inj heq
  have hlength : (names.map some).length ≤ values.length := by
    rw [List.length_map]
    exact Nat.le_of_eq h.symm
  rw [occursOnce_eq, List.map_fst_zip hlength]
  exact decide_eq_true (List.nodup_iff_count_le_one.1 hkeys _)

/-- The array of all fields gives the same fields as the object that names them. -/
theorem fields?_zip {names : List String} (hnames : names.Nodup) {values : List Json}
    (h : values.length = names.length) :
    (Json.object ((names.map some).zip values)).fields? names =
      (Json.array values).fields? names := by
  have hkeys : ((names.map some).zip values).all (·.1.isSome) = true := by
    refine List.all_eq_true.2 fun m hm => ?_
    obtain ⟨name, -, hname⟩ := List.mem_map.1 (List.of_mem_zip hm).1
    rw [← hname]
    rfl
  have honce : names.all (occursOnce ((names.map some).zip values)) = true :=
    List.all_eq_true.2 fun name _ => occursOnce_zip hnames h name
  rw [fields?, fields?, hkeys, honce, Bool.and_self, if_pos rfl, if_pos (Nat.le_of_eq h),
    map_member?_zip hnames h, h, Nat.sub_self, List.replicate_zero, List.append_nil]

/-- An edit of a record changes each of its fields at most once. By cases on the kind of edit. -/
theorem Edit.readAlike (hnames : (fields.map (·.name)).Nodup) {j k : Json}
    (h : (Form.record fields).Edit j k) : Field.ReadAlike fields j k := by
  cases h with
  | permute h =>
    refine readAlike_object h.all_eq (fun f _ => ?_) fun honce f hf => ?_
    · rw [occursOnce_eq, occursOnce_eq, (h.map _).count_eq]
    · rw [member?_of_perm h (honce f hf)]
      exact .same _
  | inMember h => exact readAlike_inMember hnames h
  | inItem h => exact readAlike_inItem h
  | @unknown _ ms key v hkey =>
    have hne : ∀ f ∈ fields, some key ≠ some f.name :=
      fun f hf heq => hkey f hf (Option.some.inj heq).symm
    refine readAlike_object rfl (fun f hf => ?_) fun _ f hf => ?_
    · rw [occursOnce_eq, occursOnce_eq, List.map_cons, List.count_cons_of_ne (hne f hf)]
    · rw [member?_cons_of_ne (hne f hf)]
      exact .same _
  | supply hf hdefault hout => exact readAlike_supply hnames hf hdefault hout
  | supplyLast hf hdefault => exact readAlike_supplyLast hf hdefault
  | @positional _ values h =>
    have hmap : (fields.map fun f => some f.name) = (fields.map (·.name)).map some := by
      rw [List.map_map]
      rfl
    rw [Field.ReadAlike, hmap, fields?_zip hnames (by rw [h, List.length_map])]
    exact readAlike_array Iff.rfl fun _ _ _ => .same _

/-! ## Readers that do not see edits -/

variable {α : Type} {form : Form} {read? : Json → Option α}

/-- Only containers are edited. A reader that takes no containers has nothing to see. -/
theorem Edit.isContainer {j k : Json} (h : form.Edit j k) : j.isContainer ∧ k.isContainer := by
  cases h <;> exact ⟨rfl, rfl⟩

/-- A reader that takes no arrays and objects does not see edits, whatever the form. -/
theorem readBy_of_eq_none (harray : ∀ items, read? (.array items) = none)
    (hobject : ∀ members, read? (.object members) = none) : form.ReadBy read? := by
  intro j k hedit
  cases hedit <;> simp only [harray, hobject]

/-- A reader of a list does not see edits if the reader of its items does not. It takes arrays only,
and in an array of items only items can be edited. -/
theorem readBy_list (h : form.ReadBy read?) : (Form.list form).ReadBy (list? read?) := by
  intro j k hedit
  cases hedit with
  | permute _ => rfl
  | inMember _ => rfl
  | inItem hitem => simp only [list?, List.mapM_append, List.mapM_cons, h hitem]

/-- A reader of a record does not see edits if what it makes of the fields does not. -/
theorem readBy_record {make? : List (Option Json) → Option α}
    (hnames : (fields.map (·.name)).Nodup)
    (h : ∀ {as bs}, Field.AllAlike fields as bs → make? as = make? bs) :
    (Form.record fields).ReadBy fun j => (j.fields? (fields.map (·.name))).bind make? := by
  intro j k hedit
  have hrel := hedit.readAlike hnames
  unfold Field.ReadAlike at hrel
  show (j.fields? _).bind make? = (k.fields? _).bind make?
  generalize j.fields? (fields.map (·.name)) = before at hrel ⊢
  generalize k.fields? (fields.map (·.name)) = after at hrel ⊢
  cases hrel with
  | none => rfl
  | some hfields => exact h hfields

/-- What does not see one edit does not see any, in whichever direction they are made. -/
theorem ReadBy.eq_of_alike (h : form.ReadBy read?) {j k : Json} (hjk : form.Alike j k) :
    read? j = read? k := by
  induction hjk with
  | rel j k hedit => exact h hedit
  | refl j => rfl
  | symm j k _ ih => exact ih.symm
  | trans j k l _ _ ih ih' => exact ih.trans ih'

end Form

namespace Field

variable {α : Type} {name : String} {form : Form} {read? : Json → Option α}

/-- A reader of a field that has to be there does not see edits. There is no default to supply. -/
theorem readBy_required (h : form.ReadBy read?) :
    Field.ReadBy ⟨name, none, form⟩ (required? read?) := by
  intro a b hab
  cases hab with
  | same => rfl
  | edited hedit => exact h hedit
  | supplied hdefault => cases hdefault

/-- A reader of a field that may be left out does not see edits, if what is read of the default in
the form is the default of the reader. -/
theorem readBy_optional (default : α) {v : Json} (h : form.ReadBy read?)
    (hdefault : read? v = some default) :
    Field.ReadBy ⟨name, some v, form⟩ (optional? default read?) := by
  intro a b hab
  cases hab with
  | same => rfl
  | edited hedit => exact h hedit
  | supplied hv =>
    cases hv
    exact hdefault.symm

/-- A reader of a field that may be left out or `null` does not see edits. Both are read as
nothing. -/
theorem readBy_nullable (h : form.ReadBy read?) :
    Field.ReadBy ⟨name, some .null, form⟩ (nullable? read?) := by
  intro a b hab
  have hread : ∀ {j : Json}, j.isContainer → nullable? read? (some j) = (read? j).map some := by
    intro j hj
    cases j with
    | null => cases hj
    | _ => rfl
  cases hab with
  | same => rfl
  | edited hedit => rw [hread hedit.isContainer.1, hread hedit.isContainer.2, h hedit]
  | supplied hv =>
    cases hv
    rfl

end Field

end NodeGraph.Json
