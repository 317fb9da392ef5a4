import NodeGraph.Json.Basic
import NodeGraph.Text.Hex

/-!
# JSON text

`Json.compact` writes a tree without blanks, `Json.pretty` with one entry a line and two blanks for
each level. In strings only quotes, backslashes and control characters are escaped.

The writers go down the tree by structural recursion. The first entry of a container is written
apart from the further ones, which have a comma in front.
-/

namespace NodeGraph.Json

open NodeGraph.Text (hexDigit)

/-- A character inside a string. A control character that has no letter is written by its number. -/
def escape (c : Char) : List Char :=
  match c with
  | '"' => ['\\', '"']
  | '\\' => ['\\', '\\']
  | '\n' => ['\\', 'n']
  | '\r' => ['\\', 'r']
  | '\t' => ['\\', 't']
  | '\x08' => ['\\', 'b']
  | '\x0c' => ['\\', 'f']
  | c =>
    if c.toNat < 0x20 then ['\\', 'u', '0', '0', hexDigit (c.toNat / 16), hexDigit (c.toNat % 16)]
    else [c]

/-- A string in quotes. Without a text it is written as an unpaired surrogate, so that it is read as
a string without a text again. -/
def quote : Text → List Char
  | some s => '"' :: s.toList.flatMap escape ++ ['"']
  | none => ['"', '\\', 'u', 'd', '8', '0', '0', '"']

/-- The word for a truth value. -/
def boolChars (b : Bool) : List Char :=
  if b then ['t', 'r', 'u', 'e'] else ['f', 'a', 'l', 's', 'e']

mutual

/-- The characters of a tree without blanks, of which `compact` makes a string. -/
def compactChars : Json → List Char
  | .null => ['n', 'u', 'l', 'l']
  | .bool b => boolChars b
  | .number n => n.chars true
  | .string s => quote s
  | .array [] => ['[', ']']
  | .array (v :: vs) => '[' :: compactChars v ++ compactItems vs ++ [']']
  | .object [] => ['\x7b', '\x7d']
  | .object ((k, v) :: ms) =>
    '\x7b' :: quote k ++ ':' :: compactChars v ++ compactMembers ms ++ ['\x7d']

/-- Further items of an array, each after a comma. -/
def compactItems : List Json → List Char
  | [] => []
  | v :: vs => ',' :: compactChars v ++ compactItems vs

/-- Further members of an object, each after a comma. -/
def compactMembers : List (Text × Json) → List Char
  | [] => []
  | (k, v) :: ms => ',' :: quote k ++ ':' :: compactChars v ++ compactMembers ms

end

/-- A new line at a level of nesting, with two blanks for each level. -/
def newline (level : Nat) : List Char :=
  '\n' :: List.replicate (2 * level) ' '

mutual

/-- The tree at a level of nesting, one entry a line. An empty container stays on its line. -/
def prettyChars (level : Nat) : Json → List Char
  | .null => ['n', 'u', 'l', 'l']
  | .bool b => boolChars b
  | .number n => n.chars true
  | .string s => quote s
  | .array [] => ['[', ']']
  | .array (v :: vs) =>
    '[' :: newline (level + 1) ++ prettyChars (level + 1) v ++ prettyItems (level + 1) vs ++
      newline level ++ [']']
  | .object [] => ['\x7b', '\x7d']
  | .object ((k, v) :: ms) =>
    '\x7b' :: newline (level + 1) ++ quote k ++ ':' :: ' ' :: prettyChars (level + 1) v ++
      prettyMembers (level + 1) ms ++ newline level ++ ['\x7d']

/-- Further items of an array, each on its line. -/
def prettyItems (level : Nat) : List Json → List Char
  | [] => []
  | v :: vs => ',' :: newline level ++ prettyChars level v ++ prettyItems level vs

/-- Further members of an object, each on its line. -/
def prettyMembers (level : Nat) : List (Text × Json) → List Char
  | [] => []
  | (k, v) :: ms =>
    ',' :: newline level ++ quote k ++ ':' :: ' ' :: prettyChars level v ++ prettyMembers level ms

end

/-- The text of a tree without blanks. -/
def compact (j : Json) : String :=
  String.ofList (compactChars j)

/-- The text of a tree with one entry a line, which is how documents are saved. -/
def pretty (j : Json) : String :=
  String.ofList (prettyChars 0 j)

end NodeGraph.Json
