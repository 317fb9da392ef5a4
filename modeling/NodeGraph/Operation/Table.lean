import NodeGraph.Operation.Context

/-!
# Tables of operations

A table says which operation belongs to which number. Its entries are kept in the order of their
numbers, each number once. A graph is planned and run with a table, and which numbers it has is all
that planning looks at.
-/

namespace NodeGraph

/-- Takes the values of a step's operands and gives the values of its results. It may give fewer
than there are destinations, or more. It may also do anything to the context. -/
abbrev Operation := List Value → Logged Context (List Value)

/-- An operation and its name, under which listings show it. -/
structure OpEntry where
  name : String
  operation : Operation

/-- The entry as logs show it. The operation itself has no text. -/
def OpEntry.text (e : OpEntry) : String :=
  "OpEntry \x7b name: " ++ Text.quoted e.name ++ " \x7d"

/-- Operations by number. A graph that needs a number without an entry has no plan. -/
structure OpTable where
  entries : List (OpCode × OpEntry) := []

namespace OpTable

/-- The entry of a number, the first one if there are several. Entries that come from `insert` are
there once. -/
def find? (t : OpTable) (op : OpCode) : Option OpEntry :=
  (t.entries.find? (·.1 = op)).map (·.2)

/-- Whether a number has an entry. Planning asks no more than this. -/
def contains (t : OpTable) (op : OpCode) : Bool :=
  (t.find? op).isSome

/-- The operation of a number, or the fault with which a pass stops where there is none. -/
def resolve (t : OpTable) (op : OpCode) : Except Fault Operation :=
  match t.find? op with
  | some e => .ok e.operation
  | none => .error (.unknownOperation op)

/-- The name of a number's operation, for listings and reports. -/
def name? (t : OpTable) (op : OpCode) : Option String :=
  (t.find? op).map (·.name)

/-- The number of entries. -/
def size (t : OpTable) : Nat :=
  t.entries.length

/-- Puts an entry in its place among ordered entries, where it replaces one with its number. -/
def insertEntry (op : OpCode) (e : OpEntry) : List (OpCode × OpEntry) → List (OpCode × OpEntry)
  | [] => [(op, e)]
  | (op', e') :: rest =>
    match compare op op' with
    | .lt => (op, e) :: (op', e') :: rest
    | .eq => (op, e) :: rest
    | .gt => (op', e') :: insertEntry op e rest

/-- The table with an operation entered, in place of one that had its number. -/
def insert (t : OpTable) (op : OpCode) (e : OpEntry) : OpTable :=
  ⟨insertEntry op e t.entries⟩

/-- Enters an operation, and reports if it replaces another one. The report has both names, which
may be the same. -/
def register (op : OpCode) (name : String) (operation : Operation) : Logged OpTable Unit := fun t =>
  { result := ()
    state := t.insert op ⟨name, operation⟩
    events :=
      match t.name? op with
      | some previous => [.operationReplaced op previous name]
      | none => [] }

/-- The table with the given entries. Of two with the same number the later one counts. -/
def ofList (entries : List (OpCode × OpEntry)) : OpTable :=
  entries.foldl (fun t (op, e) => t.insert op e) {}

end OpTable

end NodeGraph
