import NodeGraph.Toml.Scalar

/-!
# TOML tables

The tables of a document while it is read. What may be added to a table depends on how it came to
be: a table that was only named on the way to another one can still be opened by a header, and a
table made by dotted keys can only be extended by dotted keys.

Both are ways to say the same, and the rules see to it that a table is not put together from several
places of a document by accident.
-/

namespace NodeGraph.Toml

/-- What a key of a table holds, and how it came to be there. -/
inductive Item where
  /-- A value, to which nothing can be added. Inline tables are values. -/
  | value (v : Scalar)
  /-- A table. `named` tells that it has only been named on the way to another one, and `dotted`
  that dotted keys made it. -/
  | table (named dotted : Bool) (entries : List (String × Item))
  /-- An array of tables. What is added goes to its last element. -/
  | tables (elements : List (List (String × Item)))

/-- The keys of a table and what they hold, in the order in which they were added. -/
abbrev Entries := List (String × Item)

namespace Entries

/-- What a key holds, if it is there. -/
def item? (es : Entries) (key : String) : Option Item :=
  (List.find? (·.1 = key) es).map (·.2)

/-- The entries with what a key holds replaced. The key stays at its place, and has to be there for
a change. -/
def replace (es : Entries) (key : String) (item : Item) : Entries :=
  es.map fun e => if e.1 = key then (key, item) else e

/-- Changes the table at the end of a path with `change`, which is also told whether dotted keys
made the table. Tables on the way are made where they are missing. `dotted` tells whether the path
belongs to a dotted key: such a path cannot go through a table that a header opened. -/
def alter (dotted : Bool) (change : Bool → Entries → Option Entries) :
    List String → Bool → Entries → Option Entries
  | [], madeDotted, es => change madeDotted es
  | key :: path, _, es =>
    match item? es key with
    | none => do
      let sub ← alter dotted change path dotted []
      return es ++ [(key, .table true dotted sub)]
    | some (.value _) => none
    | some (.tables elements) =>
      match elements.getLast? with
      | none => none
      | some last => do
        let sub ← alter dotted change path false last
        return replace es key (.tables (elements.dropLast ++ [sub]))
    | some (.table named madeDotted sub) =>
      if dotted && !named then none
      else do
        let sub ← alter dotted change path madeDotted sub
        return replace es key (.table named madeDotted sub)

/-- Adds a value under a new key. A key after a dotted path needs a table that dotted keys made, and
a plain key needs one that they did not make. -/
def addValue (afterPath : Bool) (key : String) (v : Scalar) (madeDotted : Bool) (es : Entries) :
    Option Entries :=
  if madeDotted ≠ afterPath ∨ (item? es key).isSome then none
  else some (es ++ [(key, .value v)])

/-- Adds a value under a dotted key, for which the tables on its path are made or extended. -/
def insert (path : List String) (key : String) (v : Scalar) (madeDotted : Bool) (es : Entries) :
    Option Entries :=
  alter true (addValue (!path.isEmpty) key v) path madeDotted es

/-- Opens a table by a header. It must be new or only named so far, and not by dotted keys. -/
def openTable (key : String) (es : Entries) : Option Entries :=
  match item? es key with
  | none => some (es ++ [(key, .table false false [])])
  | some (.table true false sub) => some (replace es key (.table false false sub))
  | some _ => none

/-- Opens a new element of an array of tables by a header. The key must be new, or hold such an
array already. -/
def openElement (key : String) (es : Entries) : Option Entries :=
  match item? es key with
  | none => some (es ++ [(key, .tables [[]])])
  | some (.tables elements) => some (replace es key (.tables (elements ++ [[]])))
  | some _ => none

end Entries

end NodeGraph.Toml
