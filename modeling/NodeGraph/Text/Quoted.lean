import NodeGraph.Text.Unprintable

/-!
# Quoted text

File names and operation names in messages stand in double quotes, with escapes for what would not
show. Listings are set in columns, for which texts are filled up with blanks.
-/

namespace NodeGraph.Text

/-- A character inside quotes: as an escape of one letter if it has one, as its number if it does
not print by itself, and as it is otherwise. -/
def quotedChar (c : Char) : List Char :=
  match c with
  | '"' => ['\\', '"']
  | '\\' => ['\\', '\\']
  | '\n' => ['\\', 'n']
  | '\r' => ['\\', 'r']
  | '\t' => ['\\', 't']
  | '\x00' => ['\\', '0']
  | c =>
    if isUnprintable c then ['\\', 'u', '\x7b'] ++ Nat.toDigits 16 c.toNat ++ ['\x7d'] else [c]

/-- A text in double quotes, from which the text could be had back. -/
def quoted (s : String) : String :=
  String.ofList ('"' :: s.toList.flatMap quotedChar ++ ['"'])

/-- A text filled up with blanks on the right to a width in characters. A longer one is not cut. -/
def padRight (width : Nat) (s : String) : String :=
  s ++ String.ofList (List.replicate (width - s.length) ' ')

/-- A text filled up with blanks on the left, as numbers in a column are. -/
def padLeft (width : Nat) (s : String) : String :=
  String.ofList (List.replicate (width - s.length) ' ') ++ s

end NodeGraph.Text
