import Mathlib.Data.List.Chain
import NodeGraph.Proofs.Json.Trees

/-!
# Texts of a tree

A text of a tree has the tree's tokens in any spelling, with any blanks before, between and after
them (`Json.Written`). No blank is needed anywhere, since the tokens of a tree never have two
numbers in a row (`Json.isChain_tokens`). Every text of a tree is read as that tree:
`Json.Written.parse?_eq`.

What the printer writes is one of the texts (`Json.written_pretty`), so that it is read as the tree,
too. There are trees that it cannot write, although they have texts: a string that holds an unpaired
surrogate is read as a string without characters, and does not show how it was written
(`Json.Writable`).
-/

namespace NodeGraph.Json

/-- A text consists of tokens, one after the other, and blanks. Each token can be spelled in any way
that it has. -/
inductive Spaced : List Token → List Char → Prop
  | nil : Spaced [] []
  | blank {c : Char} {ts : List Token} {cs : List Char} (hc : Token.isBlank c) (h : Spaced ts cs) :
      Spaced ts (c :: cs)
  | token {t : Token} {ts : List Token} {lexeme cs : List Char} (ht : t.Spells lexeme)
      (h : Spaced ts cs) : Spaced (t :: ts) (lexeme ++ cs)

/-- A text is one of a tree: it consists of the tree's tokens and blanks. -/
def Written (j : Json) (text : String) : Prop :=
  Spaced j.tokens text.toList

/-! ## Numbers in a row -/

/-- Whether two tokens can stand next to each other without a blank. Only two numbers cannot, which
would be read as one. -/
def Token.MayTouch (t t' : Token) : Prop :=
  t.isNumber → t'.isNumber = false

variable {t : Token} {ts ts' : List Token}

/-- A token that is no number can stand before any other. -/
theorem isChain_cons (ht : t.isNumber = false) (h : ts.IsChain Token.MayTouch) :
    (t :: ts).IsChain Token.MayTouch := by
  refine List.isChain_cons.2 ⟨fun _ _ hnumber => ?_, h⟩
  rw [ht] at hnumber
  cases hnumber

/-- Tokens can stand before others that start with no number, whatever they end with themselves. -/
theorem isChain_append (h : ts.IsChain Token.MayTouch) (h' : ts'.IsChain Token.MayTouch)
    (hhead : ∀ t ∈ ts'.head?, t.isNumber = false) : (ts ++ ts').IsChain Token.MayTouch :=
  List.isChain_append.2 ⟨h, h', fun _ _ t ht _ => hhead t ht⟩

/-- Further items of an array begin and end with no number: a comma or the closing bracket comes
first. -/
theorem isChain_itemTokens {vs : List Json} (h : ∀ v ∈ vs, v.tokens.IsChain Token.MayTouch)
    (ht : t.isNumber = false) :
    (itemTokens vs ++ [t]).IsChain Token.MayTouch ∧
      ∀ t' ∈ (itemTokens vs ++ [t]).head?, t'.isNumber = false := by
  induction vs with
  | nil =>
    refine ⟨.singleton t, fun t' ht' => ?_⟩
    cases ht'
    exact ht
  | cons v vs ih =>
    obtain ⟨hv, hvs⟩ := List.forall_mem_cons.1 h
    obtain ⟨hchain, hhead⟩ := ih hvs
    rw [itemTokens, List.cons_append, List.append_assoc]
    refine ⟨isChain_cons rfl (isChain_append hv hchain hhead), fun t' ht' => ?_⟩
    cases ht'
    rfl

/-- Further members of an object begin and end with no number, since a comma or the closing brace
comes first and a key has to come before a value. -/
theorem isChain_memberTokens {ms : List (Text × Json)}
    (h : ∀ m ∈ ms, m.2.tokens.IsChain Token.MayTouch) (ht : t.isNumber = false) :
    (memberTokens ms ++ [t]).IsChain Token.MayTouch ∧
      ∀ t' ∈ (memberTokens ms ++ [t]).head?, t'.isNumber = false := by
  induction ms with
  | nil =>
    refine ⟨.singleton t, fun t' ht' => ?_⟩
    cases ht'
    exact ht
  | cons m ms ih =>
    obtain ⟨hm, hms⟩ := List.forall_mem_cons.1 h
    obtain ⟨hchain, hhead⟩ := ih hms
    obtain ⟨k, v⟩ := m
    rw [memberTokens, List.cons_append, List.cons_append, List.cons_append, List.append_assoc]
    refine ⟨isChain_cons rfl (isChain_cons rfl (isChain_cons rfl
      (isChain_append hm hchain hhead))), fun t' ht' => ?_⟩
    cases ht'
    rfl

/-- The tokens of a tree never have two numbers in a row. By induction on the tree: around every
value in a container there are commas, colons or brackets. -/
theorem isChain_tokens (j : Json) : j.tokens.IsChain Token.MayTouch := by
  induction j with
  | null => exact .singleton _
  | bool b => exact .singleton _
  | number n => exact .singleton _
  | string s => exact .singleton _
  | array items ih =>
    cases items with
    | nil => exact isChain_cons rfl (.singleton _)
    | cons v vs =>
      obtain ⟨hv, hvs⟩ := List.forall_mem_cons.1 ih
      obtain ⟨hchain, hhead⟩ := isChain_itemTokens hvs (t := .closeBracket) rfl
      rw [tokens, List.append_assoc]
      exact isChain_cons rfl (isChain_append hv hchain hhead)
  | object members ih =>
    cases members with
    | nil => exact isChain_cons rfl (.singleton _)
    | cons m ms =>
      obtain ⟨hm, hms⟩ := List.forall_mem_cons.1 ih
      obtain ⟨hchain, hhead⟩ := isChain_memberTokens hms (t := .closeBrace) rfl
      obtain ⟨k, v⟩ := m
      rw [tokens, List.append_assoc]
      exact isChain_cons rfl (isChain_cons rfl (isChain_cons rfl
        (isChain_append hm hchain hhead)))

/-! ## Reading a text -/

/-- A text whose first token is no number does not go on with a number. Neither does one that starts
with a blank. -/
theorem Spaced.delimited {cs : List Char} (h : Spaced ts cs)
    (hhead : ∀ t ∈ ts.head?, t.isNumber = false) : Token.Delimited cs := by
  cases h with
  | nil => exact fun _ hc => by cases hc
  | @blank c _ _ hc _ =>
    refine Token.delimited_cons ?_ _
    simp only [Token.isBlank, Bool.or_eq_true, decide_eq_true_eq] at hc
    rcases hc with ((rfl | rfl) | rfl) | rfl <;> decide
  | token ht _ =>
    cases ht with
    | number _ => cases hhead _ rfl
    | _ => exact Token.delimited_cons (by decide) _

/-- A text is cut into its tokens, if no two numbers in it touch. By induction on how the text is
made up. -/
theorem Spaced.tokens?_eq {cs : List Char} (h : Spaced ts cs)
    (hchain : ts.IsChain Token.MayTouch) : tokens? cs = some ts := by
  induction h with
  | nil => rw [tokens?]
  | blank hc _ ih => rw [Token.tokens?_of_isBlank hc, ih hchain]
  | token ht h ih =>
    obtain ⟨htouch, hchain⟩ := List.isChain_cons.1 hchain
    have hnext := Token.next?_append ht fun hnumber =>
      h.delimited fun t' ht' => htouch t' ht' hnumber
    rw [Token.tokens?_of_next? hnext, ih hchain]
    rfl

/-- Every text of a tree is read as that tree, whatever spellings and blanks it has. -/
theorem Written.parse?_eq {j : Json} {text : String} (h : j.Written text) :
    parse? text = some j := by
  rw [parse?, h.tokens?_eq j.isChain_tokens]
  exact ofTokens?_tokens j

/-! ## What the printer writes -/

/-- The trees that can be written: numerals are of the kind that JSON has, and strings and keys are
without unpaired surrogates. -/
inductive Writable : Json → Prop where
  | null : Writable .null
  | bool (b : Bool) : Writable (.bool b)
  | number {n : Numeral} (h : n.WellFormed) : Writable (.number n)
  | string (s : String) : Writable (.string (some s))
  | array {items : List Json} (h : ∀ v ∈ items, Writable v) : Writable (.array items)
  | object {members : List (Text × Json)} (hkeys : ∀ m ∈ members, m.1.isSome)
      (h : ∀ m ∈ members, Writable m.2) : Writable (.object members)

namespace Spaced

variable {cs : List Char}

/-- A new line comes at the front, with the blanks of its level. -/
theorem newline (level : Nat) (h : Spaced ts cs) : Spaced ts (newline level ++ cs) := by
  have hblanks : ∀ n, Spaced ts (List.replicate n ' ' ++ cs) := by
    intro n
    induction n with
    | zero => exact h
    | succ n ih => exact ih.blank rfl
  exact (hblanks (2 * level)).blank rfl

/-- Further items are written with their tokens, each on a line of its own. -/
theorem prettyItems {vs : List Json}
    (h : ∀ v ∈ vs, ∀ level ts cs, Spaced ts cs →
      Spaced (v.tokens ++ ts) (prettyChars level v ++ cs))
    (level : Nat) (hrest : Spaced ts cs) :
    Spaced (itemTokens vs ++ ts) (prettyItems level vs ++ cs) := by
  induction vs with
  | nil => exact hrest
  | cons v vs ih =>
    obtain ⟨hv, hvs⟩ := List.forall_mem_cons.1 h
    rw [Json.prettyItems, itemTokens]
    simp only [List.cons_append, List.append_assoc]
    exact token .comma (newline level (hv level _ _ (ih hvs)))

/-- Further members are written with their tokens, each on a line with its key. -/
theorem prettyMembers {ms : List (Text × Json)} (hkeys : ∀ m ∈ ms, m.1.isSome)
    (h : ∀ m ∈ ms, ∀ level ts cs, Spaced ts cs →
      Spaced (m.2.tokens ++ ts) (prettyChars level m.2 ++ cs))
    (level : Nat) (hrest : Spaced ts cs) :
    Spaced (memberTokens ms ++ ts) (prettyMembers level ms ++ cs) := by
  induction ms with
  | nil => exact hrest
  | cons m ms ih =>
    obtain ⟨k, v⟩ := m
    obtain ⟨s, rfl⟩ := Option.isSome_iff_exists.1 (hkeys _ List.mem_cons_self)
    obtain ⟨-, hkeys⟩ := List.forall_mem_cons.1 hkeys
    obtain ⟨hm, hms⟩ := List.forall_mem_cons.1 h
    rw [Json.prettyMembers, memberTokens]
    simp only [List.cons_append, List.append_assoc]
    exact token .comma (newline level (token (Token.spells_quote s)
      (token .colon (blank rfl (hm level _ _ (ih hkeys hms))))))

/-- A tree is written with its tokens, in front of whatever is written after it. By induction on the
tree. -/
theorem prettyChars {j : Json} (h : j.Writable) (level : Nat) (hrest : Spaced ts cs) :
    Spaced (j.tokens ++ ts) (prettyChars level j ++ cs) := by
  induction h generalizing level ts cs with
  | null => exact token .null hrest
  | bool b =>
    cases b with
    | true => exact token .true hrest
    | false => exact token .false hrest
  | number hn => exact token (.number (Numeral.spells_chars hn)) hrest
  | string s => exact token (Token.spells_quote s) hrest
  | @array items h ih =>
    cases items with
    | nil =>
      show Spaced _ (['['] ++ ([']'] ++ cs))
      exact token .openBracket (token .closeBracket hrest)
    | cons v vs =>
      obtain ⟨hv, hvs⟩ := List.forall_mem_cons.1 ih
      rw [Json.prettyChars, tokens]
      simp only [List.cons_append, List.append_assoc, List.nil_append]
      exact token .openBracket (newline (level + 1) (hv (level + 1) (prettyItems
        (fun v hv level ts cs => hvs v hv level) (level + 1)
        (newline level (token .closeBracket hrest)))))
  | @object members hkeys h ih =>
    cases members with
    | nil =>
      show Spaced _ (['\x7b'] ++ (['\x7d'] ++ cs))
      exact token .openBrace (token .closeBrace hrest)
    | cons m ms =>
      obtain ⟨k, v⟩ := m
      obtain ⟨s, rfl⟩ := Option.isSome_iff_exists.1 (hkeys _ List.mem_cons_self)
      obtain ⟨-, hkeys⟩ := List.forall_mem_cons.1 hkeys
      obtain ⟨hm, hms⟩ := List.forall_mem_cons.1 ih
      rw [Json.prettyChars, tokens]
      simp only [List.cons_append, List.append_assoc, List.nil_append]
      exact token .openBrace (newline (level + 1) (token (Token.spells_quote s)
        (token .colon (blank rfl (hm (level + 1) (prettyMembers hkeys
          (fun m hm level ts cs => hms m hm level) (level + 1)
          (newline level (token .closeBrace hrest))))))))

end Spaced

/-- What is written of a tree is a text of it, if the tree can be written at all. -/
theorem written_pretty {j : Json} (h : j.Writable) : j.Written j.pretty := by
  have hspaced := Spaced.prettyChars h 0 .nil
  rw [List.append_nil, List.append_nil] at hspaced
  rwa [Written, pretty, String.toList_ofList]

/-- What is written of a tree is read as that tree. This is all that saving and loading needs to
know of texts. -/
theorem parse?_pretty {j : Json} (h : j.Writable) : parse? j.pretty = some j :=
  (written_pretty h).parse?_eq

end NodeGraph.Json
