import NodeGraph.Json.Token

/-!
# From tokens to a tree

The reader goes through the tokens once and keeps the containers that are still open. What it
expects next and what is open make up its state, so that reading is a fold of `Reader.step` over the
tokens. Nesting has no limit.

To read a tree is thus a machine with a stack, of which one can prove what each token does to it.
`Reader.step` gives no state for a token that may not come next, and then there is no tree.
-/

namespace NodeGraph.Json

/-- A container that is still open, its last entry first. It stands on the stack above the
containers around it. -/
inductive Open where
  /-- An array after some items. -/
  | items (done : List Json)
  /-- An object after some members. -/
  | members (done : List (Text × Json))
  /-- An object after some members and the key of the next one. -/
  | entry (done : List (Text × Json)) (key : Text)

/-- What may come next. Where two cases differ only in whether the container may end, they are two
constructors. -/
inductive Expected where
  /-- A value. -/
  | value
  /-- A value or the end of an array, right after its start. -/
  | firstItem
  /-- A key or the end of an object, right after its start. -/
  | firstKey
  /-- A key. The object may not end here, since a comma came before. -/
  | key
  /-- The colon after a key. -/
  | colon
  /-- A comma or the end of the innermost container. -/
  | separator
  /-- Nothing: the tree is complete. A further token makes the text no document. -/
  | nothing (tree : Json)

/-- The state of reading: the open containers, innermost first, and what may come next. -/
structure Reader where
  stack : List Open
  expected : Expected

namespace Reader

/-- Before the first token, where any value may start. -/
def start : Reader := ⟨[], .value⟩

/-- The state after a complete value, which goes to the innermost container, or is the tree if none
is open. -/
def complete (v : Json) : List Open → Option Reader
  | [] => some ⟨[], .nothing v⟩
  | .items done :: outer => some ⟨.items (v :: done) :: outer, .separator⟩
  | .entry done key :: outer => some ⟨.members ((key, v) :: done) :: outer, .separator⟩
  | .members _ :: _ => none

/-- The state after a token where a value has to start. A bracket or a brace opens a container, and
any other value is complete at once. -/
def startValue (stack : List Open) : Token → Option Reader
  | .null => complete .null stack
  | .bool b => complete (.bool b) stack
  | .number n => complete (.number n) stack
  | .string s => complete (.string s) stack
  | .openBracket => some ⟨.items [] :: stack, .firstItem⟩
  | .openBrace => some ⟨.members [] :: stack, .firstKey⟩
  | _ => none

/-- The state after one more token, if this token may come next. -/
def step : Reader → Token → Option Reader
  | ⟨stack, .value⟩, t => startValue stack t
  | ⟨.items done :: outer, .firstItem⟩, .closeBracket => complete (.array done.reverse) outer
  | ⟨stack, .firstItem⟩, t => startValue stack t
  | ⟨.members done :: outer, .firstKey⟩, .closeBrace => complete (.object done.reverse) outer
  | ⟨.members done :: outer, .firstKey⟩, .string key => some ⟨.entry done key :: outer, .colon⟩
  | ⟨.members done :: outer, .key⟩, .string key => some ⟨.entry done key :: outer, .colon⟩
  | ⟨stack, .colon⟩, .colon => some ⟨stack, .value⟩
  | ⟨.items done :: outer, .separator⟩, .comma => some ⟨.items done :: outer, .value⟩
  | ⟨.items done :: outer, .separator⟩, .closeBracket => complete (.array done.reverse) outer
  | ⟨.members done :: outer, .separator⟩, .comma => some ⟨.members done :: outer, .key⟩
  | ⟨.members done :: outer, .separator⟩, .closeBrace => complete (.object done.reverse) outer
  | _, _ => none

/-- The tree, once it is complete. Where a container is still open, there is none. -/
def tree? : Reader → Option Json
  | ⟨_, .nothing tree⟩ => some tree
  | _ => none

end Reader

/-- The tree of a list of tokens, of which all have to be used. -/
def ofTokens? (ts : List Token) : Option Json :=
  (ts.foldlM Reader.step Reader.start).bind Reader.tree?

/-- The tree of a text. Both cutting it into tokens and putting these together can fail. -/
def parse? (text : String) : Option Json :=
  (tokens? text.toList).bind ofTokens?

end NodeGraph.Json
