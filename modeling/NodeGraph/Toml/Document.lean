import NodeGraph.Toml.Table

/-!
# TOML documents

`Toml.parse?` reads a document and gives the entries of its outermost table. A document is a list of
lines: headers, which open tables, and keys with their values, which go to the table that is open.
Arrays and inline tables can be nested less than eighty deep, and a dotted key has less than eighty
parts.

A document in which anything is wrong has no entries at all. What is wrong is not told.
-/

namespace NodeGraph.Toml

/-- The limit of nesting, for values within each other and for the parts of a key. -/
def depthLimit : Nat := 80

/-- The characters of a key without quotes. There are no letters but those of English among them. -/
def isKeyChar (c : Char) : Bool :=
  c.isAlphanum || c = '_' || c = '-'

/-- Takes one part of a key, which is a word or stands in quotes of either kind. -/
def keyPart : Reader String := fun cs =>
  match cs with
  | '"' :: _ => do
    let (text, rest) ← lineStringOf '"' cs
    return (String.ofList text, rest)
  | '\'' :: _ => do
    let (text, rest) ← lineStringOf '\'' cs
    return (String.ofList text, rest)
  | _ =>
    match cs.takeWhile isKeyChar with
    | [] => none
    | ds => some (String.ofList ds, cs.dropWhile isKeyChar)

/-- Takes the parts of a key after the first one, at most `fuel` of them. Blanks may stand around
the dots. -/
def keyParts : Nat → Reader (List String)
  | 0 => return []
  | fuel + 1 => do
    skipBlanks
    match ← get with
    | '.' :: rest =>
      set rest
      skipBlanks
      let part ← keyPart
      return part :: (← keyParts fuel)
    | _ => return []

/-- Takes a key: the parts before the last one, and the last one. A plain key has no parts before
it. -/
def key : Reader (List String × String) := do
  skipBlanks
  let first ← keyPart
  let parts := first :: (← keyParts depthLimit)
  if depthLimit ≤ parts.length then failure
  match parts.getLast? with
  | some last => return (parts.dropLast, last)
  | none => failure

/-- Drops blanks, line ends and comments. `inComment` tells that the text starts within a comment,
which ends with its line. -/
def dropSpace : (inComment : Bool) → List Char → List Char
  | _, [] => []
  | _, '\x0d' :: '\n' :: rest => dropSpace false rest
  | inComment, c :: rest =>
    if c = '\n' then dropSpace false rest
    else if inComment then if isTextChar c then dropSpace true rest else c :: rest
    else if isBlank c then dropSpace false rest
    else if c = '#' then dropSpace true rest
    else c :: rest

/-- Skips blanks, line ends and comments, as they may stand between the items of an array. -/
def skipSpace : Reader Unit := modify (dropSpace false)

/-- Takes the items of an array after its opening bracket or a comma, at most `fuel` of them. A
comma may stand behind the last one. -/
def arrayItems (item : Reader Scalar) : Nat → Reader Unit
  | 0 => failure
  | fuel + 1 => do
    skipSpace
    match ← get with
    | ']' :: rest => set rest
    | _ =>
      let _ ← item
      skipSpace
      match ← get with
      | ',' :: rest =>
        set rest
        arrayItems item fuel
      | ']' :: rest => set rest
      | _ => failure

/-- Takes the members of an inline table after its opening brace or a comma, at most `fuel` of them.
They are kept only to find keys that are there twice. -/
def tableMembers (item : Reader Scalar) : Nat → Entries → Reader Unit
  | 0, _ => failure
  | fuel + 1, es => do
    let (path, last) ← key
    skipBlanks
    expect '='
    skipBlanks
    let v ← item
    skipBlanks
    let es ← es.insert path last v false
    match ← get with
    | ',' :: rest =>
      set rest
      tableMembers item fuel es
    | '\x7d' :: rest => set rest
    | _ => failure

/-- Takes an inline table after its opening brace. It stands on one line, and no comma may stand
behind its last member. -/
def inlineTable (item : Reader Scalar) : Reader Unit := do
  skipBlanks
  match ← get with
  | '\x7d' :: rest => set rest
  | cs => tableMembers item (cs.length + 1) []

/-- Takes a value in which containers are nested at most `depth` deep. Of a container only that it
is well formed is kept. -/
def value : Nat → Reader Scalar
  | 0 => scalar
  | depth + 1 => do
    match ← get with
    | '[' :: rest =>
      set rest
      arrayItems (value depth) (rest.length + 1)
      return .other
    | '\x7b' :: rest =>
      set rest
      inlineTable (value depth)
      return .other
    | _ => scalar

/-- What has been read: all tables, and the path to the table that is open, which is the outermost
one before the first header. -/
structure Progress where
  root : Entries := []
  path : List String := []

/-- Takes a header after its first bracket. With a second bracket it opens an element of an array of
tables. -/
def header (p : Progress) : Reader Progress := do
  match ← get with
  | '[' :: rest =>
    set rest
    let (path, last) ← key
    skipBlanks
    expect ']'
    expect ']'
    let root ← Entries.alter false (fun _ => Entries.openElement last) path false p.root
    return { root, path := path ++ [last] }
  | _ =>
    let (path, last) ← key
    skipBlanks
    expect ']'
    let root ← Entries.alter false (fun _ => Entries.openTable last) path false p.root
    return { root, path := path ++ [last] }

/-- Takes a key and its value, and adds the value to the open table. -/
def keyValue (p : Progress) : Reader Progress := do
  let (path, last) ← key
  skipBlanks
  expect '='
  skipBlanks
  let v ← value (depthLimit - 1)
  let root ← Entries.alter false (Entries.insert path last v) p.path false p.root
  return { p with root }

/-- Takes one line with a header, with a key and its value, or with neither. The end of the line is
left, with the comment before it. -/
def statement (p : Progress) : Reader Progress := do
  skipBlanks
  match ← get with
  | [] => return p
  | c :: rest =>
    if c = '#' || c = '\n' || c = '\r' then return p
    else if c = '[' then
      set rest
      header p
    else keyValue p

/-- Takes statements to the end of the text, at most `fuel` of them, each with its line. The last
line need not end. -/
def statements : Nat → Progress → Reader Progress
  | 0, _ => failure
  | fuel + 1, p => do
    let p ← statement p
    skipBlanks
    comment
    if ← newline? then statements fuel p
    else
      match ← get with
      | [] => return p
      | _ => failure

/-- The outermost table of a document. A byte order mark in front is skipped. There are at most as
many lines as characters and one. -/
def parse? (text : String) : Option Entries :=
  let cs := match text.toList with
    | '\ufeff' :: rest => rest
    | cs => cs
  (statements (cs.length + 1) {} cs).map fun (p, _) => p.root

end NodeGraph.Toml
