import NodeGraph.Json.Parser
import NodeGraph.Proofs.Json.Tokens

/-!
# The tokens of a tree

A tree has its tokens (`Json.tokens`), and the reader makes the tree of them again
(`Json.ofTokens?_tokens`).

The reader goes through the tokens with a stack of containers that are open. The lemma on which all
depends says that the tokens of a tree, read where a value has to start, leave the reader where the
tree is complete, whatever is open around it (`Json.foldlM_tokens`). It is by induction on the tree,
and there is a lemma for the items of an array and one for the members of an object.
-/

namespace NodeGraph.Json

/-- Induction over trees, with what is to be shown already known of all items and of all members.
The induction that comes with the type is about lists of trees as well. -/
@[elab_as_elim, induction_eliminator]
theorem treeInduction {motive : Json → Prop} (null : motive .null) (bool : ∀ b, motive (.bool b))
    (number : ∀ n, motive (.number n)) (string : ∀ s, motive (.string s))
    (array : ∀ items, (∀ v ∈ items, motive v) → motive (.array items))
    (object : ∀ members, (∀ m ∈ members, motive m.2) → motive (.object members)) (j : Json) :
    motive j :=
  @Json.rec motive (fun items => ∀ v ∈ items, motive v) (fun members => ∀ m ∈ members, motive m.2)
    (fun m => motive m.2) null bool number string array object
    (fun _ h => absurd h List.not_mem_nil)
    (fun _ _ hv hvs => List.forall_mem_cons.2 ⟨hv, hvs⟩)
    (fun _ h => absurd h List.not_mem_nil)
    (fun _ _ hm hms => List.forall_mem_cons.2 ⟨hm, hms⟩)
    (fun _ _ hv => hv) j

mutual

/-- The tokens of a tree, in the order in which any text has them. -/
def tokens : Json → List Token
  | .null => [.null]
  | .bool b => [.bool b]
  | .number n => [.number n]
  | .string s => [.string s]
  | .array [] => [.openBracket, .closeBracket]
  | .array (v :: vs) => .openBracket :: (v.tokens ++ itemTokens vs ++ [.closeBracket])
  | .object [] => [.openBrace, .closeBrace]
  | .object ((k, v) :: ms) =>
    .openBrace :: .string k :: .colon :: (v.tokens ++ memberTokens ms ++ [.closeBrace])

/-- The tokens of further items of an array, each behind a comma. -/
def itemTokens : List Json → List Token
  | [] => []
  | v :: vs => .comma :: (v.tokens ++ itemTokens vs)

/-- The tokens of further members of an object, each behind a comma and with its key. -/
def memberTokens : List (Text × Json) → List Token
  | [] => []
  | (k, v) :: ms => .comma :: .string k :: .colon :: (v.tokens ++ memberTokens ms)

end

/-! ## From tokens to the tree -/

namespace Reader

/-- Where an array may end or go on with an item, a tree is read like anywhere else. No tree starts
with a closing bracket. -/
theorem foldlM_tokens_firstItem (j : Json) (stack : List Open) :
    j.tokens.foldlM step ⟨stack, .firstItem⟩ = j.tokens.foldlM step ⟨stack, .value⟩ := by
  have hstep : ∀ t, t ≠ .closeBracket → step ⟨stack, .firstItem⟩ t = step ⟨stack, .value⟩ t := by
    intro t ht
    cases t with
    | closeBracket => exact absurd rfl ht
    | _ => cases stack with
      | nil => rfl
      | cons o stack => cases o <;> rfl
  have hhead : ∃ t ts, j.tokens = t :: ts ∧ t ≠ .closeBracket := by
    cases j with
    | array items => cases items <;> exact ⟨_, _, rfl, Token.noConfusion⟩
    | object members => cases members <;> exact ⟨_, _, rfl, Token.noConfusion⟩
    | _ => exact ⟨_, _, rfl, Token.noConfusion⟩
  obtain ⟨t, ts, hts, ht⟩ := hhead
  rw [hts, List.foldlM_cons, List.foldlM_cons, hstep t ht]

/-- After an item, further items are read one by one, and put on those that are there. -/
theorem foldlM_itemTokens {vs : List Json}
    (h : ∀ v ∈ vs, ∀ stack, v.tokens.foldlM step ⟨stack, .value⟩ = complete v stack)
    (done : List Json) (stack : List Open) :
    (itemTokens vs).foldlM step ⟨.items done :: stack, .separator⟩ =
      some ⟨.items (vs.reverse ++ done) :: stack, .separator⟩ := by
  induction vs generalizing done with
  | nil => rfl
  | cons v vs ih =>
    obtain ⟨hv, hvs⟩ := List.forall_mem_cons.1 h
    have hitem : (v.tokens ++ itemTokens vs).foldlM step ⟨.items done :: stack, .value⟩ =
        (itemTokens vs).foldlM step ⟨.items (v :: done) :: stack, .separator⟩ := by
      rw [List.foldlM_append, hv]
      rfl
    rw [itemTokens, List.foldlM_cons]
    exact hitem.trans (by rw [ih hvs, List.reverse_cons, List.append_assoc, List.singleton_append])

/-- After a member, further members are read one by one, if each value is read as it has to be. -/
theorem foldlM_memberTokens {ms : List (Text × Json)}
    (h : ∀ m ∈ ms, ∀ stack, m.2.tokens.foldlM step ⟨stack, .value⟩ = complete m.2 stack)
    (done : List (Text × Json)) (stack : List Open) :
    (memberTokens ms).foldlM step ⟨.members done :: stack, .separator⟩ =
      some ⟨.members (ms.reverse ++ done) :: stack, .separator⟩ := by
  induction ms generalizing done with
  | nil => rfl
  | cons m ms ih =>
    obtain ⟨hm, hms⟩ := List.forall_mem_cons.1 h
    obtain ⟨k, v⟩ := m
    have hmember : (v.tokens ++ memberTokens ms).foldlM step ⟨.entry done k :: stack, .value⟩ =
        (memberTokens ms).foldlM step ⟨.members ((k, v) :: done) :: stack, .separator⟩ := by
      rw [List.foldlM_append, hm]
      rfl
    rw [memberTokens, List.foldlM_cons]
    exact hmember.trans
      (by rw [ih hms, List.reverse_cons, List.append_assoc, List.singleton_append])

/-- Where a value has to start, the tokens of a tree are read as that tree, whatever containers are
open. By induction on the tree. -/
theorem foldlM_tokens (j : Json) (stack : List Open) :
    j.tokens.foldlM step ⟨stack, .value⟩ = complete j stack := by
  -- A tree of one token is complete after it.
  have hone : ∀ r t, [t].foldlM step r = step r t := by
    intro r t
    rw [List.foldlM_cons]
    exact bind_pure _
  induction j generalizing stack with
  | null => exact hone ..
  | bool b => exact hone ..
  | number n => exact hone ..
  | string s => exact hone ..
  | array items ih =>
    cases items with
    | nil => exact hone ..
    | cons v vs =>
      obtain ⟨hv, hvs⟩ := List.forall_mem_cons.1 ih
      have hitems : (v.tokens ++ itemTokens vs).foldlM step ⟨.items [] :: stack, .firstItem⟩ =
          some ⟨.items (vs.reverse ++ [v]) :: stack, .separator⟩ := by
        rw [List.foldlM_append, foldlM_tokens_firstItem, hv]
        exact foldlM_itemTokens hvs [v] stack
      calc (array (v :: vs)).tokens.foldlM step ⟨stack, .value⟩
          = (v.tokens ++ itemTokens vs ++ [Token.closeBracket]).foldlM step
              ⟨.items [] :: stack, .firstItem⟩ := rfl
        _ = step ⟨.items (vs.reverse ++ [v]) :: stack, .separator⟩ .closeBracket := by
          rw [List.foldlM_append, hitems]
          exact hone ..
        _ = complete (array (v :: vs)) stack := by
          rw [step, List.reverse_append, List.reverse_reverse]
          rfl
  | object members ih =>
    cases members with
    | nil => exact hone ..
    | cons m ms =>
      obtain ⟨hv, hms⟩ := List.forall_mem_cons.1 ih
      obtain ⟨k, v⟩ := m
      have hmembers : (v.tokens ++ memberTokens ms).foldlM step ⟨.entry [] k :: stack, .value⟩ =
          some ⟨.members (ms.reverse ++ [(k, v)]) :: stack, .separator⟩ := by
        rw [List.foldlM_append, hv]
        exact foldlM_memberTokens hms [(k, v)] stack
      calc (object ((k, v) :: ms)).tokens.foldlM step ⟨stack, .value⟩
          = (v.tokens ++ memberTokens ms ++ [Token.closeBrace]).foldlM step
              ⟨.entry [] k :: stack, .value⟩ := rfl
        _ = step ⟨.members (ms.reverse ++ [(k, v)]) :: stack, .separator⟩ .closeBrace := by
          rw [List.foldlM_append, hmembers]
          exact hone ..
        _ = complete (object ((k, v) :: ms)) stack := by
          rw [step, List.reverse_append, List.reverse_reverse]
          rfl

end Reader

/-- The tokens of a tree are read as that tree, which is the case where no container is open. -/
theorem ofTokens?_tokens (j : Json) : ofTokens? j.tokens = some j := by
  rw [ofTokens?, Reader.start, Reader.foldlM_tokens]
  rfl

end NodeGraph.Json
