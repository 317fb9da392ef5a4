import NodeGraph.Json.Basic

/-!
# Records and choices in a document

A record is written as an object, in which unknown keys are ignored, or as an array of its fields in
order. A choice is written by its name, or as an object whose one key is the name.

`Json.fields?` puts both forms of a record into one list, in which a field is there or not. How a
missing field is treated is then said field by field: `required?`, `optional?` or `nullable?`.
-/

namespace NodeGraph.Json

/-- Whether a key stands at most once among the members. Readers refuse a record in which a known
key is repeated, rather than take the first or the last. -/
def occursOnce (members : List (Text × Json)) (key : String) : Bool :=
  (members.filter (·.1 = some key)).length ≤ 1

/-- The fields of a record in the order of `names`, with `none` for a field that is not there. Every
key of an object needs a text, and a known key may stand only once. An array may leave out fields at
its end. -/
def fields? (names : List String) : Json → Option (List (Option Json))
  | .object members =>
    if members.all (·.1.isSome) && names.all (occursOnce members) then
      some (names.map fun name => (Json.object members).member? name)
    else none
  | .array items =>
    if items.length ≤ names.length then
      some (items.map some ++ List.replicate (names.length - items.length) none)
    else none
  | _ => none

/-- The name of a choice without content. It may also stand over `null`. -/
def choice? : Json → Option String
  | .string (some name) => some name
  | .object [(some name, .null)] => some name
  | _ => none

/-- A list, each item read by `item?`. If one item cannot be read, there is no list. -/
def list? {α : Type} (item? : Json → Option α) : Json → Option (List α)
  | .array items => items.mapM item?
  | _ => none

/-- A field that has to be there, read by `read?`. -/
def required? {α : Type} (read? : Json → Option α) (field : Option Json) : Option α :=
  field.bind read?

/-- A field that may be left out, in which case `default` stands in. A field that is there and
cannot be read is not replaced. -/
def optional? {α : Type} (default : α) (read? : Json → Option α) : Option Json → Option α
  | none => some default
  | some j => read? j

/-- A field that may be left out or `null`, which are the same. Otherwise it is read by `read?`. -/
def nullable? {α : Type} (read? : Json → Option α) : Option Json → Option (Option α)
  | none | some .null => some none
  | some j => (read? j).map some

/-- The text of a string, if it has one. -/
def text? : Json → Option String
  | .string s => s
  | _ => none

/-- The truth value of a tree that is one. Numbers and words in quotes are none. -/
def bool? : Json → Option Bool
  | .bool b => some b
  | _ => none

end NodeGraph.Json
