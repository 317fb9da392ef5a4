import NodeGraph.Json.Printer
import NodeGraph.Json.Token

/-!
# Tokens in a text

`Json.Token.Spells` says how a token may be written: a number has one spelling up to its exponent,
and the characters of a string can be escaped in several ways. Any spelling is read as the next
token of a text, whatever follows it, if that does not go on with a number
(`Json.Token.next?_append`). What the printer writes for a number or a string is one of the
spellings: `Numeral.spells_chars` and `Json.Token.spells_quote`.

The reader takes a number apart in the order in which it is written, and there is a lemma for each
part: sign, digits before the point, fraction, exponent. Each says that the part is read up to its
end, provided that what follows cannot belong to it.
-/

namespace NodeGraph

/-- The numerals that JSON has: digits before the point, of which only a single one may start with
zero, and digits after it. -/
structure Numeral.WellFormed (n : Numeral) : Prop where
  whole_ne_nil : n.whole ≠ []
  whole : ∀ c ∈ n.whole, c.isDigit
  leading : n.whole.head? = some '0' → n.whole = ['0']
  fraction : ∀ c ∈ n.fraction, c.isDigit

/-- An exponent has a mark, perhaps a sign, and digits, among which there may be zeros in front. -/
inductive Numeral.ExponentSpells : Option Int → List Char → Prop
  | absent : ExponentSpells none []
  | unsigned {mark : Char} {ds : List Char} (hmark : mark = 'e' ∨ mark = 'E') (hne : ds ≠ [])
      (hds : ∀ c ∈ ds, c.isDigit) : ExponentSpells (some (ofDigits 10 0 ds : Nat)) (mark :: ds)
  | plus {mark : Char} {ds : List Char} (hmark : mark = 'e' ∨ mark = 'E') (hne : ds ≠ [])
      (hds : ∀ c ∈ ds, c.isDigit) :
      ExponentSpells (some (ofDigits 10 0 ds : Nat)) (mark :: '+' :: ds)
  | minus {mark : Char} {ds : List Char} (hmark : mark = 'e' ∨ mark = 'E') (hne : ds ≠ [])
      (hds : ∀ c ∈ ds, c.isDigit) :
      ExponentSpells (some (-(ofDigits 10 0 ds : Nat))) (mark :: '-' :: ds)

/-- What is written of a numeral before its exponent and after its sign. There is no point without
digits after it. -/
def Numeral.digits (n : Numeral) : List Char :=
  n.whole ++ if n.fraction.isEmpty then [] else '.' :: n.fraction

/-- A numeral is written by its sign, its digits and its exponent. Only the exponent leaves a
choice. -/
inductive Numeral.Spells (n : Numeral) : List Char → Prop
  | mk {exponent : List Char} (h : n.WellFormed) (hexponent : ExponentSpells n.exponent exponent) :
      Spells n ((if n.negative then ['-'] else []) ++ (n.digits ++ exponent))

/-- The digits of a number stand for that number. -/
theorem Numeral.ofDigits_toDigits (n : Nat) : ofDigits 10 0 (Nat.toDigits 10 n) = n := by
  have hvalue := Nat.ofDigitChars_ten_toDigits (n := n)
  rw [Nat.ofDigitChars_eq_foldl] at hvalue
  simpa only [ofDigits, digitValue, Nat.mul_comm] using hvalue

/-- What the printer writes is a spelling of the numeral, with a sign on a positive exponent. -/
theorem Numeral.spells_chars {n : Numeral} (h : n.WellFormed) : n.Spells (n.chars true) := by
  have hdigits : ∀ e : Int, ∀ c ∈ Nat.toDigits 10 e.natAbs, c.isDigit :=
    fun e c hc => Nat.isDigit_of_mem_toDigits (by decide) (by decide) hc
  have hexponent : ∀ e : Int, ExponentSpells (some e) ('e' :: exponentChars true e) := by
    intro e
    unfold exponentChars
    by_cases hneg : e < 0
    · have hvalue : -(ofDigits 10 0 (Nat.toDigits 10 e.natAbs) : Int) = e := by
        rw [ofDigits_toDigits]
        omega
      have hspells := ExponentSpells.minus (.inl rfl) Nat.toDigits_ne_nil (hdigits e)
      rw [hvalue] at hspells
      rwa [if_pos hneg]
    · have hvalue : (ofDigits 10 0 (Nat.toDigits 10 e.natAbs) : Int) = e := by
        rw [ofDigits_toDigits]
        omega
      have hspells := ExponentSpells.plus (.inl rfl) Nat.toDigits_ne_nil (hdigits e)
      rw [hvalue] at hspells
      rwa [if_neg hneg, if_pos rfl]
  rw [chars, List.append_assoc, List.append_assoc, ← List.append_assoc n.whole]
  refine .mk h ?_
  cases n.exponent with
  | none => exact .absent
  | some e => exact hexponent e

namespace Json.Token

/-- Whether a text does not go on with a number that ends before it. It is here that the end of a
number is seen. -/
def Delimited (cs : List Char) : Prop :=
  ∀ c ∈ cs.head?, c.isDigit = false ∧ c ≠ '.' ∧ c ≠ 'e' ∧ c ≠ 'E'

/-- A text does not go on with a number if it starts with another character than those that can be
in one. -/
theorem delimited_cons {c : Char} (h : c.isDigit = false ∧ c ≠ '.' ∧ c ≠ 'e' ∧ c ≠ 'E')
    (cs : List Char) : Delimited (c :: cs) := by
  intro c' hc
  cases hc
  exact h

/-- A piece of a string is written as a character that needs no escape, or as an escape by a letter
or by number. -/
inductive Piece.Spells : Piece → List Char → Prop
  | plain {c : Char} (hcontrol : ¬c.toNat < 0x20) (hquote : c ≠ '"') (hbackslash : c ≠ '\\') :
      Spells (.char c) [c]
  | letter {letter c : Char} (h : escaped? letter = some c) : Spells (.char c) ['\\', letter]
  | unit {a b c d : Char} {n : Nat} (h : hexUnit? a b c d = some n) :
      Spells (.unit n) ['\\', 'u', a, b, c, d]

/-- The pieces of a string are written one after the other, with nothing in between. -/
inductive PiecesSpell : List Piece → List Char → Prop
  | nil : PiecesSpell [] []
  | cons {p : Piece} {ps : List Piece} {cs cs' : List Char} (hp : p.Spells cs)
      (hps : PiecesSpell ps cs') : PiecesSpell (p :: ps) (cs ++ cs')

/-- How a token is written. Apart from numbers and strings there is one way. -/
inductive Spells : Token → List Char → Prop
  | openBrace : Spells .openBrace ['\x7b']
  | closeBrace : Spells .closeBrace ['\x7d']
  | openBracket : Spells .openBracket ['[']
  | closeBracket : Spells .closeBracket [']']
  | colon : Spells .colon [':']
  | comma : Spells .comma [',']
  | null : Spells .null ['n', 'u', 'l', 'l']
  | true : Spells (.bool true) ['t', 'r', 'u', 'e']
  | false : Spells (.bool false) ['f', 'a', 'l', 's', 'e']
  | number {n : Numeral} {cs : List Char} (h : n.Spells cs) : Spells (.number n) cs
  | string {ps : List Piece} {cs : List Char} (h : PiecesSpell ps cs) :
      Spells (.string ((Token.text? ps).map String.ofList)) ('"' :: (cs ++ ['"']))

/-- Whether a token is a number, so that what follows may go on with it. -/
def isNumber : Token → Bool
  | .number _ => true
  | _ => false

/-! ## Numbers -/

/-- Digits are read up to the first other character. -/
theorem digits?_append {ds rest : List Char} (hne : ds ≠ []) (hds : ∀ c ∈ ds, c.isDigit)
    (hrest : ∀ c ∈ rest.head?, c.isDigit = false) : digits? (ds ++ rest) = some (ds, rest) := by
  have htake : rest.takeWhile Char.isDigit = [] ∧ rest.dropWhile Char.isDigit = rest := by
    cases rest with
    | nil => exact ⟨rfl, rfl⟩
    | cons c rest =>
      have hc := hrest c rfl
      exact ⟨List.takeWhile_cons_of_neg (by simp [hc]), List.dropWhile_cons_of_neg (by simp [hc])⟩
  unfold digits?
  rw [List.takeWhile_append_of_pos hds, List.dropWhile_append_of_pos hds, htake.1, htake.2,
    List.append_nil]
  cases ds with
  | nil => exact absurd rfl hne
  | cons d ds => rfl

/-- The digits before the point are read. A zero in front is a part of its own, after which there
can be no further digit. -/
theorem wholePart?_append {n : Numeral} (h : n.WellFormed) {rest : List Char}
    (hrest : ∀ c ∈ rest.head?, c.isDigit = false) :
    wholePart? (n.whole ++ rest) = some (n.whole, rest) := by
  have hread := digits?_append h.whole_ne_nil h.whole hrest
  have hleading := h.leading
  cases hwhole : n.whole with
  | nil => exact absurd hwhole h.whole_ne_nil
  | cons d ds =>
    rw [hwhole] at hread hleading
    by_cases hd : d = '0'
    · cases hleading (congrArg some hd)
      cases rest with
      | nil => rfl
      | cons c rest => simp [wholePart?, hrest c rfl]
    · rw [List.cons_append, wholePart?] at *
      · exact hread
      · exact fun _ heq => hd (List.cons.inj heq).1

/-- The point and the digits after it are read, or nothing if there is no point. -/
theorem fractionPart?_append {ds rest : List Char} (hds : ∀ c ∈ ds, c.isDigit)
    (hrest : ∀ c ∈ rest.head?, c.isDigit = false ∧ c ≠ '.') :
    fractionPart? ((if ds.isEmpty then [] else '.' :: ds) ++ rest) = some (ds, rest) := by
  cases ds with
  | nil =>
    cases rest with
    | nil => rfl
    | cons c rest =>
      rw [List.isEmpty_nil, if_pos rfl, List.nil_append, fractionPart?]
      exact fun _ heq => (hrest c rfl).2 (List.cons.inj heq).1
  | cons d ds =>
    exact digits?_append (List.cons_ne_nil d ds) hds fun c hc => (hrest c hc).1

/-- A digit is not taken for a sign, and an exponent without a sign is positive. -/
theorem signPart_append {ds : List Char} (hne : ds ≠ []) (hds : ∀ c ∈ ds, c.isDigit)
    (rest : List Char) : signPart (ds ++ rest) = (false, ds ++ rest) := by
  cases ds with
  | nil => exact absurd rfl hne
  | cons d ds =>
    have hd : d.isDigit := hds d List.mem_cons_self
    rw [List.cons_append, signPart]
    all_goals
      intro _ heq
      cases heq
      exact absurd hd (by decide)

/-- The exponent is read, in any of its spellings or if there is none. -/
theorem exponentPart?_append {exponent : Option Int} {cs rest : List Char}
    (h : Numeral.ExponentSpells exponent cs) (hrest : Delimited rest) :
    exponentPart? (cs ++ rest) = some (exponent, rest) := by
  have hdigits : ∀ {ds : List Char}, ds ≠ [] → (∀ c ∈ ds, c.isDigit) →
      digits? (ds ++ rest) = some (ds, rest) :=
    fun hne hds => digits?_append hne hds fun c hc => (hrest c hc).1
  have hmarked : ∀ {mark : Char}, mark = 'e' ∨ mark = 'E' → (mark = 'e' || mark = 'E') = true := by
    rintro _ (rfl | rfl) <;> rfl
  cases h with
  | absent =>
    cases rest with
    | nil => rfl
    | cons c rest =>
      obtain ⟨-, -, he, hE⟩ := hrest c rfl
      simp [exponentPart?, he, hE]
  | unsigned hmark hne hds =>
    rw [List.cons_append, exponentPart?, if_pos (hmarked hmark)]
    simp only [signPart_append hne hds, hdigits hne hds, Option.bind_eq_bind, Option.bind_some,
      Option.pure_def, Bool.false_eq_true, if_false]
  | plus hmark hne hds =>
    rw [List.cons_append, List.cons_append, exponentPart?, if_pos (hmarked hmark)]
    simp only [signPart, hdigits hne hds, Option.bind_eq_bind, Option.bind_some,
      Option.pure_def, Bool.false_eq_true, if_false]
  | minus hmark hne hds =>
    rw [List.cons_append, List.cons_append, exponentPart?, if_pos (hmarked hmark)]
    simp only [signPart, hdigits hne hds, Option.bind_eq_bind, Option.bind_some,
      Option.pure_def, if_true]

/-- A numeral is read up to its end, part by part. The sign has been read before it. -/
theorem numeral?_append {n : Numeral} (h : n.WellFormed) {exponent rest : List Char}
    (hexponent : Numeral.ExponentSpells n.exponent exponent) (hrest : Delimited rest) :
    numeral? n.negative (n.digits ++ (exponent ++ rest)) = some (n, rest) := by
  have hmark : ∀ c ∈ (exponent ++ rest).head?, c.isDigit = false ∧ c ≠ '.' := by
    have hmarked : ∀ {mark : Char},
        mark = 'e' ∨ mark = 'E' → mark.isDigit = false ∧ mark ≠ '.' := by
      rintro _ (rfl | rfl) <;> decide
    generalize n.exponent = e at hexponent
    cases hexponent with
    | absent => exact fun c hc => ⟨(hrest c hc).1, (hrest c hc).2.1⟩
    | unsigned hmark | plus hmark | minus hmark =>
      intro c hc
      cases hc
      exact hmarked hmark
  have hpoint : ∀ c ∈ ((if n.fraction.isEmpty then [] else '.' :: n.fraction) ++
      (exponent ++ rest)).head?, c.isDigit = false := by
    cases n.fraction with
    | nil => exact fun c hc => (hmark c hc).1
    | cons d ds =>
      intro c hc
      cases hc
      decide
  rw [Numeral.digits, List.append_assoc]
  simp only [numeral?, wholePart?_append h hpoint, fractionPart?_append h.fraction hmark,
    exponentPart?_append hexponent hrest, Option.bind_eq_bind, Option.bind_some, Option.pure_def]

/-- What starts with a digit can only be a number. The other tokens start with other characters. -/
theorem next?_of_isDigit {c : Char} (hc : c.isDigit) (cs : List Char) :
    next? (c :: cs) = (numeral? false (c :: cs)).map fun read => (.number read.1, read.2) := by
  rw [next?]
  all_goals
    intro _ heq
    cases heq
    exact absurd hc (by decide)

/-- A numeral is the next token, with a sign in front or without. -/
theorem next?_numeral {n : Numeral} {cs rest : List Char} (h : n.Spells cs)
    (hrest : Delimited rest) : next? (cs ++ rest) = some (.number n, rest) := by
  obtain @⟨exponent, h, hexponent⟩ := h
  have hread := numeral?_append h hexponent hrest
  rw [List.append_assoc, List.append_assoc]
  cases hneg : n.negative with
  | true =>
    rw [hneg] at hread
    rw [if_pos rfl, List.singleton_append, next?, hread]
    rfl
  | false =>
    rw [hneg, Numeral.digits] at hread
    rw [Numeral.digits]
    cases hwhole : n.whole with
    | nil => exact absurd hwhole h.whole_ne_nil
    | cons d ds =>
      have hd : d.isDigit := h.whole d (by simp [hwhole])
      rw [hwhole, List.cons_append, List.cons_append] at hread
      rw [if_neg Bool.false_ne_true, List.nil_append, List.cons_append, List.cons_append,
        next?_of_isDigit hd, hread]
      rfl

/-! ## Strings -/

/-- A piece is read, and the rest of the string after it. -/
theorem pieces?_piece {p : Piece} {cs : List Char} (h : p.Spells cs) (rest : List Char) :
    pieces? (cs ++ rest) = (pieces? rest).map fun read => (p :: read.1, read.2) := by
  cases h with
  | @plain c hcontrol hquote hbackslash =>
    rw [List.singleton_append, pieces?, if_neg hcontrol]
    · exact hquote
    · exact fun _ _ _ _ _ heq => absurd heq hbackslash
    · exact fun _ _ heq => absurd heq hbackslash
  | @letter letter c h =>
    have hletter : letter ≠ 'u' := by
      rintro rfl
      cases h
    rw [List.cons_append, List.singleton_append, pieces?, h]
    · cases pieces? rest <;> rfl
    · exact fun _ _ _ _ _ heq => absurd heq hletter
  | unit h =>
    simp only [List.cons_append, List.nil_append]
    rw [pieces?, h]
    cases pieces? rest <;> rfl

/-- Pieces are read up to the closing quote. No spelling of a piece starts with a quote. -/
theorem pieces?_append {ps : List Piece} {cs : List Char} (h : PiecesSpell ps cs)
    (rest : List Char) : pieces? (cs ++ '"' :: rest) = some (ps, rest) := by
  induction h with
  | nil => rw [List.nil_append, pieces?]
  | cons hp _ ih =>
    rw [List.append_assoc, pieces?_piece hp, ih]
    rfl

/-- However a token is written, it is the next one. What follows matters for numbers only. -/
theorem next?_append {t : Token} {cs rest : List Char} (h : t.Spells cs)
    (hrest : t.isNumber → Delimited rest) : next? (cs ++ rest) = some (t, rest) := by
  cases h with
  | number h => exact next?_numeral h (hrest rfl)
  | string h =>
    rw [List.cons_append, List.append_assoc, List.singleton_append, next?, pieces?_append h]
    rfl
  | _ => rfl

/-! ## What the printer writes -/

/-- The digits of a number of eight bits are read, behind two zeros. Control characters are written
so. -/
theorem hexUnit?_hexDigit {n : Nat} (h : n < 256) :
    hexUnit? '0' '0' (Text.hexDigit (n / 16)) (Text.hexDigit (n % 16)) = some n := by
  have hsum : (0 * 16 + 0) * 256 + (n / 16 * 16 + n % 16) = n := by omega
  unfold hexUnit?
  rw [Text.hexValue?_hexDigit (by omega), Text.hexValue?_hexDigit (by omega)]
  exact congrArg some hsum

/-- A unit below the surrogates is a character, and needs no second one. -/
theorem text?_unit {n : Nat} (h : n < 0xD800) (ps : List Piece) :
    Token.text? (.unit n :: ps) = (Token.text? ps).map (Char.ofNat n :: ·) := by
  have hhigh : isHighSurrogate n = false := by simp [isHighSurrogate]; omega
  have hlow : isLowSurrogate n = false := by simp [isLowSurrogate]; omega
  rw [Token.text?.eq_def]
  simp only [hhigh, hlow, Bool.false_eq_true, if_false]

/-- A character inside a string is written as one piece that stands for it: as itself, by a letter,
or by number. -/
theorem exists_piece (c : Char) :
    ∃ p : Piece, p.Spells (escape c) ∧
      ∀ ps, Token.text? (p :: ps) = (Token.text? ps).map (c :: ·) := by
  unfold escape
  split
  case h_8 hquote hbackslash _ _ _ _ _ =>
    by_cases hcontrol : c.toNat < 0x20
    · refine ⟨.unit c.toNat, ?_, fun ps => ?_⟩
      · rw [if_pos hcontrol]
        exact .unit (hexUnit?_hexDigit (by omega))
      · rw [text?_unit (by omega), Char.ofNat_toNat]
    · refine ⟨.char c, ?_, fun _ => by rw [Token.text?]⟩
      rw [if_neg hcontrol]
      exact .plain hcontrol hquote hbackslash
  all_goals exact ⟨.char _, .letter rfl, fun _ => by rw [Token.text?]⟩

/-- The characters of a string are written as pieces that stand for them, one for each. -/
theorem exists_pieces (cs : List Char) :
    ∃ ps, PiecesSpell ps (cs.flatMap escape) ∧ Token.text? ps = some cs := by
  induction cs with
  | nil => exact ⟨[], .nil, by rw [Token.text?]⟩
  | cons c cs ih =>
    obtain ⟨ps, hps, htext⟩ := ih
    obtain ⟨p, hp, hptext⟩ := exists_piece c
    refine ⟨p :: ps, .cons hp hps, ?_⟩
    rw [hptext, htext]
    rfl

/-- What the printer writes is a spelling of the string. Every string has one. -/
theorem spells_quote (s : String) : Spells (.string (some s)) (quote (some s)) := by
  obtain ⟨ps, hps, htext⟩ := exists_pieces s.toList
  have hspells := Spells.string hps
  rwa [htext, Option.map_some, String.ofList_toList] at hspells

/-! ## Cutting a text -/

/-- A text that starts with a token is cut after it, and the rest is cut in the same way. -/
theorem tokens?_of_next? {cs rest : List Char} {t : Token} (h : next? cs = some (t, rest)) :
    tokens? cs = (tokens? rest).map (t :: ·) := by
  cases cs with
  | nil => cases h
  | cons c cs =>
    cases hblank : isBlank c with
    | true =>
      simp only [isBlank, Bool.or_eq_true, decide_eq_true_eq] at hblank
      rcases hblank with ((rfl | rfl) | rfl) | rfl <;> cases h
    | false =>
      rw [tokens?, hblank, if_neg Bool.false_ne_true]
      split
      · rename_i hnone
        rw [h] at hnone
        cases hnone
      · rename_i hsome
        rw [h] at hsome
        cases hsome
        rfl

/-- Blanks are dropped in front of a token. -/
theorem tokens?_of_isBlank {c : Char} (h : isBlank c) (cs : List Char) :
    tokens? (c :: cs) = tokens? cs := by
  rw [tokens?, if_pos h]

end Json.Token

end NodeGraph
