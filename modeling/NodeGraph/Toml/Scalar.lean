import NodeGraph.Decimal.Numeral
import NodeGraph.Text.Hex

/-!
# TOML values without structure

Strings, numbers, truth values and times, as they stand in a TOML document. Of strings and times
only that they are well formed is of interest here, since no setting is one: a string of several
lines is skipped, and a time is checked.

Strings that are keys are needed. They stand on one line, and are the only ones whose text is kept.
-/

namespace NodeGraph.Toml

open Text (hexValue?)

/-- A value of a TOML document, of which only that is kept which a setting could be. -/
inductive Scalar where
  | integer (n : Int)
  | float (x : Float)
  | boolean (b : Bool)
  /-- A string, a time, an array or an inline table. It is well formed, and no setting. -/
  | other

/-- A reader takes something from the front of a text and leaves the rest, or fails. -/
abbrev Reader := StateT (List Char) Option

/-- The characters that may stand in comments and strings: all but control characters, of which only
the tab is allowed. -/
def isTextChar (c : Char) : Bool :=
  c = '\t' || (' ' ≤ c && c ≠ '\x7f')

/-- Blanks within a line. Line ends are none. -/
def isBlank (c : Char) : Bool :=
  c = ' ' || c = '\t'

/-- Takes the characters of a class at the front of the text, which may be none. -/
def takeWhile (p : Char → Bool) : Reader (List Char) := fun cs =>
  some (cs.takeWhile p, cs.dropWhile p)

/-- Skips blanks within a line, if there are any. -/
def skipBlanks : Reader Unit := do
  let _ ← takeWhile isBlank

/-- Takes one character that has to be `c`. The reader fails at any other one. -/
def expect (c : Char) : Reader Unit
  | d :: rest => if c = d then some ((), rest) else none
  | [] => none

/-- Takes an end of line, if there is one. Tells whether there was. -/
def newline? : Reader Bool
  | '\n' :: rest => some (true, rest)
  | '\x0d' :: '\n' :: rest => some (true, rest)
  | cs => some (false, cs)

/-- Takes a comment, if there is one. A character that may not stand in it ends it, and is then met
where a line should end. -/
def comment : Reader Unit
  | '#' :: rest => some ((), rest.dropWhile isTextChar)
  | cs => some ((), cs)

/-! ## Strings -/

/-- The character of a number written in hexadecimal digits. Surrogates are no characters, and
neither are numbers beyond the last one. -/
def hexChar? (ds : List Char) : Option Char := do
  let units ← ds.mapM hexValue?
  let n := units.foldl (fun n d => n * 16 + d) 0
  if n < 0xD800 ∨ (0xDFFF < n ∧ n < 0x110000) then some (Char.ofNat n) else none

/-- Takes an escape after its backslash, which is a letter, or a letter and digits. -/
def escape : Reader Char
  | 'b' :: rest => some ('\x08', rest)
  | 't' :: rest => some ('\t', rest)
  | 'n' :: rest => some ('\n', rest)
  | 'f' :: rest => some ('\x0c', rest)
  | 'r' :: rest => some ('\r', rest)
  | '"' :: rest => some ('"', rest)
  | '\\' :: rest => some ('\\', rest)
  | 'u' :: rest => do
    if rest.length < 4 then none
    else return (← hexChar? (rest.take 4), rest.drop 4)
  | 'U' :: rest => do
    if rest.length < 8 then none
    else return (← hexChar? (rest.take 8), rest.drop 8)
  | _ => none

/-- Takes a string on one line after its opening quote, where escapes count if `escapes` holds.
Every turn takes a character, and there are at most `fuel` turns. -/
def lineString (quote : Char) (escapes : Bool) : Nat → List Char → Option (List Char × List Char)
  | 0, _ | _, [] => none
  | fuel + 1, c :: rest =>
    if c = quote then some ([], rest)
    else if escapes && c = '\\' then do
      let (e, rest) ← escape rest
      let (text, rest) ← lineString quote escapes fuel rest
      return (e :: text, rest)
    else if isTextChar c then do
      let (text, rest) ← lineString quote escapes fuel rest
      return (c :: text, rest)
    else none

/-- Skips the blanks and line ends after a backslash at the end of a line, at most `fuel` of
them. -/
def skipLineEnds : Nat → List Char → List Char
  | 0, cs => cs
  | fuel + 1, cs =>
    match cs.dropWhile isBlank with
    | '\n' :: rest => skipLineEnds fuel rest
    | '\x0d' :: '\n' :: rest => skipLineEnds fuel rest
    | rest => rest

/-- What follows a backslash at the end of a line, if it stands there. Blanks may stand behind the
backslash, and the blanks and empty lines after it are skipped. -/
def lineContinuation? (cs : List Char) : Option (List Char) :=
  match cs.dropWhile isBlank with
  | '\n' :: rest => some (skipLineEnds rest.length rest)
  | '\x0d' :: '\n' :: rest => some (skipLineEnds rest.length rest)
  | _ => none

/-- Skips a string over several lines after its opening quotes. Up to two quotes may stand right
before the closing ones. -/
def blockString (quote : Char) (escapes : Bool) : Nat → List Char → Option (List Char)
  | 0, _ | _, [] => none
  | fuel + 1, c :: rest =>
    if c = quote then
      let count := ((c :: rest).takeWhile (· = quote)).length
      let after := (c :: rest).dropWhile (· = quote)
      if count < 3 then blockString quote escapes fuel after
      else if count ≤ 5 then some after
      else none
    else if escapes && c = '\\' then
      match lineContinuation? rest with
      | some rest => blockString quote escapes fuel rest
      | none =>
        match escape rest with
        | some (_, rest) => blockString quote escapes fuel rest
        | none => none
    else if isTextChar c || c = '\n' then blockString quote escapes fuel rest
    else
      match c, rest with
      | '\x0d', '\n' :: rest => blockString quote escapes fuel rest
      | _, _ => none

/-- Takes a string on one line that stands in quotes of the given kind. Escapes count in double
quotes only. -/
def lineStringOf (quote : Char) : Reader (List Char)
  | c :: rest => if c = quote then lineString quote (quote = '"') (rest.length + 1) rest else none
  | [] => none

/-- Takes a string in quotes of the given kind, on one line or, in three quotes, over several. Its
text is not kept. -/
def stringOf (quote : Char) : Reader Unit
  | cs =>
    if cs.take 3 = [quote, quote, quote] then do
      let rest ← blockString quote (quote = '"') (cs.length + 1) (cs.drop 3)
      return ((), rest)
    else do
      let (_, rest) ← lineStringOf quote cs
      return ((), rest)

/-! ## Numbers -/

/-- Digits of a class with single underscores between them. The underscores are dropped, and there
is a digit at both ends. -/
def digits? (isDigit : Char → Bool) : List Char → Option (List Char)
  | [] => none
  | [c] => if isDigit c then some [c] else none
  | c :: '_' :: rest => if isDigit c then (digits? isDigit rest).map (c :: ·) else none
  | c :: rest => if isDigit c then (digits? isDigit rest).map (c :: ·) else none

/-- Decimal digits that do not start with a zero, or a single zero. -/
def plainDigits? (cs : List Char) : Option (List Char) :=
  match digits? Char.isDigit cs with
  | some ('0' :: _ :: _) => none
  | ds => ds

/-- The integer, if it is one of 64 bits with a sign. Others are not rounded, and make a document
useless. -/
def int64? (n : Int) : Option Int :=
  if -9223372036854775808 ≤ n ∧ n ≤ 9223372036854775807 then some n else none

/-- The number of digits in a base of up to sixteen, the most significant one first. -/
def ofDigits (base : Nat) (ds : List Char) : Nat :=
  ds.foldl (fun n d => n * base + (hexValue? d).getD 0) 0

/-- Whether a character is a digit in a base of up to sixteen. Letters may be of either case. -/
def isDigitOf (base : Nat) (c : Char) : Bool :=
  match hexValue? c with
  | some d => d < base
  | none => false

/-- The integer that a text stands for. A sign is possible with decimal digits only. -/
def integer? : List Char → Option Int
  | '0' :: 'x' :: rest => (digits? (isDigitOf 16) rest).bind fun ds => int64? (ofDigits 16 ds)
  | '0' :: 'o' :: rest => (digits? (isDigitOf 8) rest).bind fun ds => int64? (ofDigits 8 ds)
  | '0' :: 'b' :: rest => (digits? (isDigitOf 2) rest).bind fun ds => int64? (ofDigits 2 ds)
  | cs =>
    let (negative, cs) := Numeral.splitSign cs
    (plainDigits? cs).bind fun ds =>
      let n : Int := ofDigits 10 ds
      int64? (if negative then -n else n)

/-- The exponent of a float after its mark. Zeros may stand in front of it. -/
def exponent? (cs : List Char) : Option Int :=
  let (negative, cs) := Numeral.splitSign cs
  (digits? Char.isDigit cs).map fun ds =>
    let n : Int := ofDigits 10 ds
    if negative then -n else n

/-- The numeral of a float: digits, then a fraction, an exponent or both. Digits alone are an
integer. -/
def floatNumeral? (cs : List Char) : Option Numeral := do
  let (negative, cs) := Numeral.splitSign cs
  let mantissa := cs.takeWhile (!Numeral.isExponentMark ·)
  let exponent ← match cs.dropWhile (!Numeral.isExponentMark ·) with
    | [] => some none
    | _ :: rest => (exponent? rest).map some
  let whole ← plainDigits? (mantissa.takeWhile (· ≠ '.'))
  match mantissa.dropWhile (· ≠ '.') with
  | [] => if exponent.isNone then none else return { negative, whole, exponent }
  | _ :: rest => return { negative, whole, fraction := ← digits? Char.isDigit rest, exponent }

/-- The float that a text stands for. A positive number that is out of range is no float, and a
negative one is the negative infinity. -/
def float? (cs : List Char) : Option Float :=
  match cs with
  | ['i', 'n', 'f'] | ['+', 'i', 'n', 'f'] => some (1 / 0)
  | ['-', 'i', 'n', 'f'] => some (-1 / 0)
  | ['n', 'a', 'n'] | ['+', 'n', 'a', 'n'] | ['-', 'n', 'a', 'n'] => some (0 / 0)
  | cs => do
    let n ← floatNumeral? cs
    if n.value.isInf && !n.negative then none else some n.value

/-! ## Times -/

/-- The number of a text of exactly `count` digits. Signs and underscores are not possible here. -/
def fixedDigits? (count : Nat) (cs : List Char) : Option Nat :=
  if cs.length = count ∧ cs.all Char.isDigit then some (ofDigits 10 cs) else none

/-- The number of days of a month in a year, with leap years as they are since the calendar's
reform. -/
def monthDays (year month : Nat) : Nat :=
  if month = 2 then
    if year % 4 = 0 ∧ (year % 100 ≠ 0 ∨ year % 400 = 0) then 29 else 28
  else if month = 4 ∨ month = 6 ∨ month = 9 ∨ month = 11 then 30
  else 31

/-- Whether a text is a date: year, month and day with so many digits each, and a day that the month
has. -/
def isDate (cs : List Char) : Bool :=
  match fixedDigits? 4 (cs.take 4), cs.drop 4 with
  | some year, ['-', m, m', '-', d, d'] =>
    match fixedDigits? 2 [m, m'], fixedDigits? 2 [d, d'] with
    | some month, some day =>
      1 ≤ month && month ≤ 12 && 1 ≤ day && day ≤ monthDays year month
    | _, _ => false
  | _, _ => false

/-- Whether a text is an hour and a minute, with two digits each. Midnight is the start of a day
only. -/
def isHourMinute (cs : List Char) : Bool :=
  match cs with
  | [h, h', ':', m, m'] =>
    match fixedDigits? 2 [h, h'], fixedDigits? 2 [m, m'] with
    | some hour, some minute => hour ≤ 23 && minute ≤ 59
    | _, _ => false
  | _ => false

/-- Whether a text is a time of day, with a fraction of a second or without. There are leap
seconds. -/
def isTime (cs : List Char) : Bool :=
  isHourMinute (cs.take 5) &&
    match cs.drop 5 with
    | ':' :: s :: s' :: rest =>
      (match fixedDigits? 2 [s, s'] with
        | some second => second ≤ 60
        | none => false) &&
        (match rest with
          | [] => true
          | '.' :: fraction => !fraction.isEmpty && fraction.all Char.isDigit
          | _ => false)
    | _ => false

/-- Whether a text is the distance of a time zone, which is a letter or a signed hour and minute. -/
def isOffset : List Char → Bool
  | ['Z'] | ['z'] => true
  | '+' :: rest => isHourMinute rest
  | '-' :: rest => isHourMinute rest
  | _ => false

/-- Whether a text is a time of day, with a time zone or without. The zone starts at the first
character that only a zone can have. -/
def isZonedTime (cs : List Char) : Bool :=
  let isZone (c : Char) := c = 'Z' || c = 'z' || c = '+' || c = '-'
  isTime (cs.takeWhile (!isZone ·)) &&
    match cs.dropWhile (!isZone ·) with
    | [] => true
    | offset => isOffset offset

/-- Whether a text is a date, a time of day, or both with a letter between them. A time zone needs
both. -/
def isDateTime (cs : List Char) : Bool :=
  isDate cs || isTime cs ||
    (isDate (cs.take 10) &&
      match cs.drop 10 with
      | c :: time => (c = 'T' || c = 't') && isZonedTime time
      | [] => false)

/-! ## All of them -/

/-- The characters of numbers, truth values and times. A word goes as far as they do. -/
def isWordChar (c : Char) : Bool :=
  c.isAlphanum || c = '_' || c = '+' || c = '-' || c = '.' || c = ':'

/-- The value of a word. What is neither a truth value nor a number has to be a time. -/
def word? (cs : List Char) : Option Scalar :=
  match cs with
  | ['t', 'r', 'u', 'e'] => some (.boolean true)
  | ['f', 'a', 'l', 's', 'e'] => some (.boolean false)
  | cs =>
    match integer? cs, float? cs with
    | some n, _ => some (.integer n)
    | none, some x => some (.float x)
    | none, none => if isDateTime cs then some .other else none

/-- Takes a number, a truth value or a time. A blank may stand between a date and a time. -/
def word : Reader Scalar := fun cs => do
  let first := cs.takeWhile isWordChar
  let rest := cs.dropWhile isWordChar
  match isDate first, rest with
  | true, ' ' :: after =>
    let second := after.takeWhile isWordChar
    if isZonedTime second then some (.other, after.dropWhile isWordChar) else some (.other, rest)
  | _, _ => return (← word? first, rest)

/-- Takes a value without structure: a string if there is a quote, and a word otherwise. -/
def scalar : Reader Scalar := fun cs =>
  match cs with
  | '"' :: _ => do
    let ((), rest) ← stringOf '"' cs
    return (.other, rest)
  | '\'' :: _ => do
    let ((), rest) ← stringOf '\'' cs
    return (.other, rest)
  | _ => word cs

end NodeGraph.Toml
