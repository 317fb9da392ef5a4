import NodeGraph.Decimal.Numeral

/-!
# JSON trees

A `Json` tree keeps its numbers as numerals, so that reading one decides nothing about ranges or
precision, and its members in the order of the text, repeated keys included. What a number or a
repeated key means is for the readers of values and records to decide.
-/

namespace NodeGraph

/-- The text of a JSON string. A string with an unpaired surrogate escape has none, and is still a
string. -/
abbrev Json.Text := Option String

/-- A JSON document, as far as readers can tell documents apart: blanks and the way in which
characters are escaped are gone. -/
inductive Json where
  | null
  | bool (value : Bool)
  | number (value : Numeral)
  | string (value : Json.Text)
  | array (items : List Json)
  | object (members : List (Json.Text × Json))
  deriving Inhabited, Repr

namespace Json

/-- The string with a text, as writers make it. -/
def str (s : String) : Json :=
  .string (some s)

/-- The number of an integer, as writers make it: without a point and without an exponent. -/
def int (n : Int) : Json :=
  .number (.ofInt n)

/-- An object with the given members. Writers use it, whose keys all have a text. -/
def obj (members : List (String × Json)) : Json :=
  .object (members.map fun (key, value) => (some key, value))

/-- The member of the given key that stands first. There is none in a tree that is no object. -/
def member? (key : String) : Json → Option Json
  | .object members => (members.find? (·.1 = some key)).map (·.2)
  | _ => none

end Json

end NodeGraph
