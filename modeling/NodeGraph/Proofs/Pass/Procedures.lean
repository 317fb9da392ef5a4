import NodeGraph.Operation.Builtin
import NodeGraph.Proofs.Pass.Coercions
import NodeGraph.Proofs.Pass.Invocations
import NodeGraph.Proofs.Pass.Steadiness

/-!
# Operations that count by coercing

A `Procedure` is the course of an operation that touches the counts of the context only by coercing
values: it coerces, looks at the context, takes from the random stream, and goes on as it likes with
what it gets. Its coercions in a context can be listed, and it adds as many to the counts as there
are lossy ones among them (`Procedure.tally_run`). The built-in operations follow procedures
(`OpTable.follows_builtin`).

If the operations of a table follow procedures, the steps of a pass add to the counts the lossy
coercions of their operations and of the values that they write (`Invocation.tally_executeAll`).
-/

namespace NodeGraph

open Coercion

/-- The course of an operation that touches the counts only by coercing. What comes next can depend
on what was got so far. -/
inductive Procedure (α : Type) where
  | done (result : α)
  | coerce (value : Value) (type : ValueType) (next : type.Payload → Procedure α)
  /-- Looks at the context, and may move the random stream. The counts stay as they are. -/
  | look (move : Context → Random.Stream) (next : Context → Procedure α)

namespace Procedure

variable {α : Type}

/-- Carries out a procedure in a context, with the reports of its coercions. -/
def run : Procedure α → Logged Context α
  | .done result => return result
  | .coerce value type next => do
    let payload ← Context.coerce type value
    run (next payload)
  | .look move next => fun c => run (next c) { c with stream := move c }

/-- The coercions of a procedure that is carried out in a context. They depend on the context, since
the course of the procedure does. -/
def coercions : Procedure α → Context → List Coercion
  | .done _, _ => []
  | .coerce value type next, c =>
    let coerced := Context.coerce type value c
    ⟨value, type⟩ :: coercions (next coerced.result) coerced.state
  | .look move next, c => coercions (next c) { c with stream := move c }

/-- A procedure counts the lossy ones among its coercions. By induction on the procedure. -/
theorem tally_run (p : Procedure α) (c : Context) :
    (p.run c).state.tally = c.tally.add (losses (p.coercions c)) := by
  induction p generalizing c with
  | done result => rfl
  | coerce value type next ih =>
    rw [coercions, losses_cons, ← Tally.add_add]
    have hcoerce : (Context.coerce type value c).state.tally =
        c.tally.add (Coercion.mk value type).isLossy.toNat := by
      rw [Context.state_coerce]
      rfl
    rw [← hcoerce]
    exact ih _ _
  | look move next ih => exact ih c { c with stream := move c }

/-- Draws a scalar from the random stream, and goes on with it. -/
def randomScalar (next : Float32 → Procedure α) : Procedure α :=
  .look (fun c => c.stream.scalar.2) fun c => next c.stream.scalar.1

/-- Draws the components of a random vector, as the operation does. -/
def randomVector3 : Procedure (List Value) :=
  randomScalar fun x => randomScalar fun y => randomScalar fun z => .done [.vector3 ⟨x, y, z⟩]

/-- Coerces the first two inputs to scalars, and gives a scalar that is made of them. -/
def binary (f : Float32 → Float32 → Float32) (inputs : List Value) : Procedure (List Value) :=
  .coerce (Operation.input inputs 0) .scalar fun a =>
    .coerce (Operation.input inputs 1) .scalar fun b => .done [.scalar (f a b)]

end Procedure

/-- A procedure for each operation and the values that it takes. -/
abbrev Procedures := OpCode → List Value → Procedure (List Value)

/-- The procedures of the built-in operations. Constants and parameter reads coerce nothing, and
neither does the sink. -/
def Procedures.builtin : Procedures := fun op inputs =>
  if op = .sink then .done inputs
  else if op = .randomVector3 then .randomVector3
  else if op = .add then .binary (· + ·) inputs
  else if op = .subtract then .binary (· - ·) inputs
  else if op = .multiply then .binary (· * ·) inputs
  else if op = .modulo then .binary Binary.remainder inputs
  else if op = .divide then .binary (· / ·) inputs
  else .done [Operation.input inputs 0]

namespace OpTable

/-- The operations of a table follow procedures: they give what the procedures give, and leave the
context that they leave. -/
def Follows (t : OpTable) (procedures : Procedures) : Prop :=
  ∀ op e, t.find? op = some e → ∀ inputs c,
    (e.operation inputs c).result = ((procedures op inputs).run c).result ∧
      (e.operation inputs c).state = ((procedures op inputs).run c).state

/-- The built-in operations follow procedures, so that what they count is known for all inputs. -/
theorem follows_builtin : builtin.Follows .builtin := by
  intro op e he inputs c
  have hmem := mem_of_find?_ofList he
  simp only [List.mem_cons, List.not_mem_nil, or_false, Prod.mk.injEq] at hmem
  rcases hmem with ⟨rfl, rfl⟩ | ⟨rfl, rfl⟩ | ⟨rfl, rfl⟩ | ⟨rfl, rfl⟩ | ⟨rfl, rfl⟩ | ⟨rfl, rfl⟩ |
    ⟨rfl, rfl⟩ | ⟨rfl, rfl⟩ | ⟨rfl, rfl⟩ | ⟨rfl, rfl⟩ | ⟨rfl, rfl⟩ | ⟨rfl, rfl⟩ | ⟨rfl, rfl⟩ |
    ⟨rfl, rfl⟩
  all_goals exact ⟨rfl, rfl⟩

end OpTable

namespace Invocation

variable {t : OpTable} {procedures : Procedures}

/-- The coercions of the operation itself, of the inputs that it takes as scalars for example. -/
def coercions (procedures : Procedures) (i : Invocation) : List Coercion :=
  (procedures i.step.op i.inputs).coercions i.frame.context

/-- The coercions of the values that the operation gives to the types of their destinations. -/
def writes (i : Invocation) : List Coercion :=
  Destination.coercions i.frame.store.size i.step.results i.outcome.result

/-- The number of lossy coercions by operations, and of values that they give. -/
def fallbacks (procedures : Procedures) (is : List Invocation) : Nat :=
  losses (is.flatMap (coercions procedures)) + losses (is.flatMap writes)

/-- An invocation and the writing of its values count the lossy coercions of both. -/
theorem tally_written (ht : t.Follows procedures) {i : Invocation} (hi : i.Of t) :
    i.written.state.context.tally = i.frame.context.tally.add (fallbacks procedures [i]) := by
  obtain ⟨e, he, hoperation⟩ := hi
  have hstate : i.outcome.state.tally =
      i.frame.context.tally.add (losses (i.coercions procedures)) := by
    rw [outcome, hoperation, (ht i.step.op e he i.inputs i.frame.context).2, Procedure.tally_run,
      coercions]
  rw [written, Destination.context_writeAll, fallbacks, List.flatMap_singleton,
    List.flatMap_singleton, ← Tally.add_add, ← hstate]
  rfl

/-- Steps that are executed count the lossy coercions of their invocations, whether or not a fault
stops them. -/
theorem tally_executeAll (ht : t.Follows procedures) (steps : List Step) (f : Frame) :
    (Step.executeAll t steps f).state.context.tally =
      f.context.tally.add (fallbacks procedures (Step.invocations t steps f)) := by
  refine Step.executeAll_induction
    (P := fun f is f' => f'.context.tally = f.context.tally.add (fallbacks procedures is))
    (fun _ _ => rfl) (fun h h' => ?_) (fun _ => tally_written ht) steps f
  rw [h', h, Tally.add_add, fallbacks, fallbacks, fallbacks, List.flatMap_append,
    List.flatMap_append, losses_append, losses_append]
  congr 1
  omega

end Invocation

end NodeGraph
