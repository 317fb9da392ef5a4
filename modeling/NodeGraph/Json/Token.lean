import NodeGraph.Json.Basic
import NodeGraph.Text.Hex

/-!
# JSON tokens

`tokens?` cuts a text into tokens and drops the blanks between them. It is strict: every character
has to belong to a token or be one of the four blanks.

Each part of a token has a function that reads it at the front of a text and gives what follows. The
lemmas named `_length` say that what follows is shorter, which is why `tokens?` comes to an end.
-/

namespace NodeGraph.Json

/-- A unit of JSON text. A number is kept as a numeral, and a string with its escapes resolved. -/
inductive Token where
  | openBrace
  | closeBrace
  | openBracket
  | closeBracket
  | colon
  | comma
  | null
  | bool (value : Bool)
  | number (value : Numeral)
  | string (value : Text)
  deriving DecidableEq, Repr

namespace Token

open NodeGraph.Text (hexValue?)

/-- The characters that may stand between tokens. No other kind of white space is among them. -/
def isBlank (c : Char) : Bool :=
  c = ' ' || c = '\n' || c = '\t' || c = '\r'

/-- The number of four hexadecimal digits, in either case. -/
def hexUnit? (a b c d : Char) : Option Nat := do
  return ((← hexValue? a) * 16 + (← hexValue? b)) * 256 + ((← hexValue? c) * 16 + (← hexValue? d))

/-- Whether a unit is the first half of a surrogate pair. -/
def isHighSurrogate (unit : Nat) : Bool :=
  0xD800 ≤ unit && unit ≤ 0xDBFF

/-- Whether a unit is the second half of a surrogate pair. -/
def isLowSurrogate (unit : Nat) : Bool :=
  0xDC00 ≤ unit && unit ≤ 0xDFFF

/-- The character of a surrogate pair. It is not asked whether the two units make one. -/
def ofSurrogates (high low : Nat) : Char :=
  Char.ofNat (0x10000 + (high - 0xD800) * 0x400 + (low - 0xDC00))

/-- The character that a one-letter escape stands for. A slash may be escaped and need not be. -/
def escaped? (c : Char) : Option Char :=
  match c with
  | '"' => some '"'
  | '\\' => some '\\'
  | '/' => some '/'
  | 'b' => some '\x08'
  | 'f' => some '\x0c'
  | 'n' => some '\n'
  | 'r' => some '\r'
  | 't' => some '\t'
  | _ => none

/-- A part of a string as written: a character, by itself or by a one-letter escape, or a UTF-16
unit by its number. -/
inductive Piece where
  | char (c : Char)
  | unit (n : Nat)
  deriving DecidableEq, Repr

/-- Reads a string after its opening quote: its pieces, and what follows the closing quote. Control
characters have to be escaped. -/
def pieces? : List Char → Option (List Piece × List Char)
  | [] => none
  | '"' :: rest => some ([], rest)
  | '\\' :: 'u' :: a :: b :: c :: d :: rest => do
    let n ← hexUnit? a b c d
    let (ps, rest) ← pieces? rest
    return (.unit n :: ps, rest)
  | '\\' :: c :: rest => do
    let e ← escaped? c
    let (ps, rest) ← pieces? rest
    return (.char e :: ps, rest)
  | c :: rest =>
    if c.toNat < 0x20 then none
    else (pieces? rest).map fun (ps, rest) => (.char c :: ps, rest)

/-- The text of a string's pieces. Surrogate units have to come in pairs. -/
def text? : List Piece → Option (List Char)
  | [] => some []
  | .char c :: rest => (text? rest).map (c :: ·)
  | .unit n :: rest =>
    if isHighSurrogate n then
      match rest with
      | .unit low :: rest =>
        if isLowSurrogate low then (text? rest).map (ofSurrogates n low :: ·) else none
      | _ => none
    else if isLowSurrogate n then none
    else (text? rest).map (Char.ofNat n :: ·)

/-- The digits at the front of a text, of which there has to be one, and what follows the last of
them. -/
def digits? (cs : List Char) : Option (List Char × List Char) :=
  match cs.takeWhile Char.isDigit with
  | [] => none
  | ds => some (ds, cs.dropWhile Char.isDigit)

/-- The digits before the point: a single zero, or digits that start with another one. -/
def wholePart? : List Char → Option (List Char × List Char)
  | '0' :: rest =>
    match rest with
    | c :: _ => if c.isDigit then none else some (['0'], rest)
    | [] => some (['0'], [])
  | cs => digits? cs

/-- The point and the digits after it, if there is a point. Then there has to be a digit. -/
def fractionPart? : List Char → Option (List Char × List Char)
  | '.' :: rest => digits? rest
  | cs => some ([], cs)

/-- An optional sign: whether it is a minus, and what follows. -/
def signPart : List Char → Bool × List Char
  | '-' :: rest => (true, rest)
  | '+' :: rest => (false, rest)
  | cs => (false, cs)

/-- The exponent, if there is an exponent mark. Its digits may start with zeros. -/
def exponentPart? : List Char → Option (Option Int × List Char)
  | c :: rest =>
    if c = 'e' || c = 'E' then do
      let (negative, rest) := signPart rest
      let (ds, rest) ← digits? rest
      let size : Int := Numeral.ofDigits 10 0 ds
      return (some (if negative then -size else size), rest)
    else some (none, c :: rest)
  | [] => some (none, [])

/-- Reads a number that follows its sign, as far as it goes. What follows the number is not looked
at. -/
def numeral? (negative : Bool) (cs : List Char) : Option (Numeral × List Char) := do
  let (whole, cs) ← wholePart? cs
  let (fraction, cs) ← fractionPart? cs
  let (exponent, cs) ← exponentPart? cs
  return ({ negative, whole, fraction, exponent }, cs)

/-- Reads the token at the front of a text that starts with no blank. Words are taken letter by
letter, so that what follows one need not be a blank. -/
def next? : List Char → Option (Token × List Char)
  | '\x7b' :: rest => some (.openBrace, rest)
  | '\x7d' :: rest => some (.closeBrace, rest)
  | '[' :: rest => some (.openBracket, rest)
  | ']' :: rest => some (.closeBracket, rest)
  | ':' :: rest => some (.colon, rest)
  | ',' :: rest => some (.comma, rest)
  | 'n' :: 'u' :: 'l' :: 'l' :: rest => some (.null, rest)
  | 't' :: 'r' :: 'u' :: 'e' :: rest => some (.bool true, rest)
  | 'f' :: 'a' :: 'l' :: 's' :: 'e' :: rest => some (.bool false, rest)
  | '"' :: rest =>
    (pieces? rest).map fun (ps, rest) => (.string ((text? ps).map String.ofList), rest)
  | '-' :: rest => (numeral? true rest).map fun (n, rest) => (.number n, rest)
  | cs => (numeral? false cs).map fun (n, rest) => (.number n, rest)

/-- To read a string takes at least its closing quote. -/
theorem pieces?_length {cs rest : List Char} {ps : List Piece} (h : pieces? cs = some (ps, rest)) :
    rest.length < cs.length := by
  fun_induction pieces? cs generalizing ps rest <;>
    simp_all [Option.bind_eq_some_iff] <;> grind

/-- To read digits takes at least one of them. -/
theorem digits?_length {cs ds rest : List Char} (h : digits? cs = some (ds, rest)) :
    rest.length < cs.length := by
  have split :
      (cs.takeWhile Char.isDigit).length + (cs.dropWhile Char.isDigit).length = cs.length := by
    rw [← List.length_append, List.takeWhile_append_dropWhile]
  unfold digits? at h
  split at h
  · simp at h
  · next hne =>
    simp only [Option.some.injEq, Prod.mk.injEq] at h
    have := List.length_pos_iff.2 hne
    grind

/-- To read the digits before the point takes at least one of them. -/
theorem wholePart?_length {cs ds rest : List Char} (h : wholePart? cs = some (ds, rest)) :
    rest.length < cs.length := by
  unfold wholePart? at h
  split at h
  · split at h <;> grind
  · exact digits?_length h

/-- To read the point and the digits after it does not put anything back. Where there is no point,
nothing is taken. -/
theorem fractionPart?_length {cs ds rest : List Char} (h : fractionPart? cs = some (ds, rest)) :
    rest.length ≤ cs.length := by
  unfold fractionPart? at h
  split at h
  · have := digits?_length h
    grind
  · grind

/-- To read an optional sign does not put anything back. -/
theorem signPart_length (cs : List Char) : (signPart cs).2.length ≤ cs.length := by
  unfold signPart
  split <;> simp

/-- To read an exponent does not put anything back. Where there is none, nothing is taken. -/
theorem exponentPart?_length {cs rest : List Char} {e : Option Int}
    (h : exponentPart? cs = some (e, rest)) : rest.length ≤ cs.length := by
  unfold exponentPart? at h
  split at h
  · next c cs =>
    split at h
    · simp only [Option.bind_eq_bind, Option.bind_eq_some_iff, Option.pure_def, Option.some.injEq,
        Prod.mk.injEq] at h
      obtain ⟨⟨ds, rest'⟩, hd, _, rfl⟩ := h
      have := digits?_length hd
      have := signPart_length cs
      simp only [List.length_cons]
      omega
    · grind
  · grind

/-- To read a number takes at least the first digit, whichever of its parts are there. -/
theorem numeral?_length {negative : Bool} {cs rest : List Char} {n : Numeral}
    (h : numeral? negative cs = some (n, rest)) : rest.length < cs.length := by
  simp only [numeral?, Option.bind_eq_bind, Option.bind_eq_some_iff, Option.pure_def,
    Option.some.injEq, Prod.mk.injEq] at h
  obtain ⟨⟨_, cs₁⟩, h₁, ⟨_, cs₂⟩, h₂, ⟨_, cs₃⟩, h₃, _, rfl⟩ := h
  have := wholePart?_length h₁
  have := fractionPart?_length h₂
  have := exponentPart?_length h₃
  dsimp only at *
  omega

/-- To read a token takes at least one character, which makes the recursion of `tokens?` end. -/
theorem next?_length {cs rest : List Char} {t : Token} (h : next? cs = some (t, rest)) :
    rest.length < cs.length := by
  unfold next? at h
  split at h <;> try grind
  · simp only [Option.map_eq_some_iff, Prod.mk.injEq] at h
    obtain ⟨⟨ps, rest'⟩, hp, _, rfl⟩ := h
    have := pieces?_length hp
    grind
  · simp only [Option.map_eq_some_iff, Prod.mk.injEq] at h
    obtain ⟨⟨n, rest'⟩, hn, _, rfl⟩ := h
    have := numeral?_length hn
    grind
  · simp only [Option.map_eq_some_iff, Prod.mk.injEq] at h
    obtain ⟨⟨n, rest'⟩, hn, _, rfl⟩ := h
    exact numeral?_length hn

end Token

/-- The tokens of a text. There are none at all if one part of the text is no token, wherever it
stands. -/
def tokens? (cs : List Char) : Option (List Token) :=
  match cs with
  | [] => some []
  | c :: rest =>
    if Token.isBlank c then tokens? rest
    else
      match h : Token.next? (c :: rest) with
      | none => none
      | some (t, rest') =>
        have := Token.next?_length h
        (tokens? rest').map (t :: ·)
termination_by cs.length
decreasing_by
  · exact Nat.lt_succ_self _
  · exact this

end NodeGraph.Json
