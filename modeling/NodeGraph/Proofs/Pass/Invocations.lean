import NodeGraph.Proofs.Pass.Remains

/-!
# The invocations of a pass

A step that is executed invokes its operation once, unless the table does not have it or an operand
is beyond the store. The context that a pass leaves is made by these invocations and by what their
values become when they are written, one after the other. So whatever holds of each of them and
passes on from one to the next holds of all the steps that are executed
(`Step.executeAll_induction`), whether or not a fault stops them.

The invocations of a pass can be listed (`Step.invocations`). An entry of the list has the values
that the operation took and the frame in which it took them, from which all else follows.
-/

namespace NodeGraph

/-- An operation that a step invokes, with all that it can see. -/
structure Invocation where
  step : Step
  operation : Operation
  /-- The values of the step's operands. -/
  inputs : List Value
  /-- The frame in which the operation is invoked, before the step has changed anything. -/
  frame : Frame

namespace Invocation

/-- What the operation gives, and the context that it leaves. -/
def outcome (i : Invocation) : Outcome Context (List Value) :=
  i.operation i.inputs i.frame.context

/-- What writing the values of the operation comes to. The scratch lists hold the values that the
operation took and those that it gave. -/
def written (i : Invocation) : Progress :=
  Destination.writeAll i.step.results i.outcome.result
    ⟨i.frame.store, i.outcome.state, ⟨i.inputs, i.outcome.result⟩⟩

/-- The operation is the one that a table has for the step. -/
def Of (t : OpTable) (i : Invocation) : Prop :=
  ∃ e, t.find? i.step.op = some e ∧ i.operation = e.operation

end Invocation

namespace Step

/-- The invocation that a step makes in a frame, if it comes to it: the table has the operation, and
all operands have values. -/
def invocation? (t : OpTable) (s : Step) (f : Frame) : Option Invocation := do
  let operation ← (t.resolve s.op).toOption
  let inputs ← (s.operands.mapM (Operand.value f.store)).toOption
  return ⟨s, operation, inputs, f⟩

/-- The invocations that steps make in order, up to a fault. A step that makes an invocation may
still stop when it writes. -/
def invocations (t : OpTable) : List Step → Frame → List Invocation
  | [], _ => []
  | s :: rest, f =>
    (s.invocation? t f).toList ++
      if (s.execute t f).result.isNone then invocations t rest (s.execute t f).state else []

variable {t : OpTable} {s : Step} {f : Frame}

/-- A step that makes no invocation stops with a fault and leaves the frame as it is, but for the
scratch lists. One that makes an invocation writes its values. -/
theorem execute_cases (t : OpTable) (s : Step) (f : Frame) :
    (s.invocation? t f = none ∧ ∃ scratch fault, s.execute t f = .stop { f with scratch } fault) ∨
    ∃ i, s.invocation? t f = some i ∧ i.step = s ∧ i.frame = f ∧ i.Of t ∧
      s.execute t f = { i.written with events := i.outcome.events ++ i.written.events } := by
  unfold invocation?
  cases hop : t.find? s.op with
  | none =>
    rw [execute_of_not_contains (by rw [OpTable.contains, hop]; rfl)]
    simp only [OpTable.resolve, hop]
    exact .inl ⟨rfl, f.scratch, _, rfl⟩
  | some e =>
    simp only [OpTable.resolve, hop]
    cases hinputs : s.operands.mapM (Operand.value f.store) with
    | error fault =>
      obtain ⟨scratch, hexecute⟩ := execute_of_mapM_error hop hinputs
      exact .inl ⟨rfl, scratch, fault, hexecute⟩
    | ok inputs =>
      exact .inr ⟨⟨s, e.operation, inputs, f⟩, rfl, rfl, rfl, ⟨e, hop, rfl⟩,
        execute_of_mapM hop hinputs⟩

/-- What holds of each invocation and where there is none, whatever the scratch lists hold then, and
passes on from one part to the next, holds of all invocations of steps and the frames before and
after them. -/
theorem executeAll_induction {P : Frame → List Invocation → Frame → Prop}
    (hnone : ∀ f scratch, P f [] { f with scratch })
    (htrans : ∀ {f f' f'' : Frame} {is is' : List Invocation},
      P f is f' → P f' is' f'' → P f (is ++ is') f'')
    (hone : ∀ i : Invocation, i.Of t → P i.frame [i] i.written.state)
    (steps : List Step) (f : Frame) :
    P f (invocations t steps f) (executeAll t steps f).state := by
  induction steps generalizing f with
  | nil => exact hnone f f.scratch
  | cons s steps ih =>
    rw [invocations, executeAll]
    rcases execute_cases t s f with
      ⟨hi, scratch, fault, hexecute⟩ | ⟨i, hi, rfl, rfl, hof, hexecute⟩
    · rw [hi, hexecute, Progress.andThen_of_some rfl]
      exact hnone f scratch
    · rw [hi]
      -- The invocation counts also if a fault stops the writing of its values.
      have hfirst := hone i hof
      cases hresult : i.written.result with
      | some fault =>
        have hstop : (i.step.execute t i.frame).result = some fault := by rw [hexecute, hresult]
        rw [hstop, Progress.andThen_of_some hstop, hexecute]
        exact hfirst
      | none =>
        have hgo : (i.step.execute t i.frame).result = none := by rw [hexecute, hresult]
        rw [hgo, Progress.andThen_of_none hgo, hexecute]
        exact htrans hfirst (ih i.written.state)

/-- Steps invoke the operations of the table, and no others. -/
theorem of_mem_invocations {steps : List Step} {i : Invocation} (hi : i ∈ invocations t steps f) :
    i.Of t := by
  have hall := executeAll_induction (t := t) (P := fun _ is _ => ∀ i ∈ is, i.Of t)
    (fun _ _ => List.forall_mem_nil _) (fun h h' => List.forall_mem_append.2 ⟨h, h'⟩)
    (fun _ => List.forall_mem_singleton.2) steps f
  exact hall i hi

/-- Steps make their invocations with stores of one size, since no step changes the size. -/
theorem size_of_mem_invocations {steps : List Step} {i : Invocation}
    (hi : i ∈ invocations t steps f) : i.frame.store.size = f.store.size := by
  refine (executeAll_induction (t := t) (P := fun f is f' => f'.store.size = f.store.size ∧
    ∀ i ∈ is, i.frame.store.size = f.store.size) ?_ ?_ ?_ steps f).2 i hi
  · intro f _
    exact ⟨rfl, List.forall_mem_nil _⟩
  · rintro f f' f'' is is' ⟨hsize, hfirst⟩ ⟨hsize', hrest⟩
    have hrest' : ∀ i ∈ is', i.frame.store.size = f.store.size :=
      fun i hi => (hrest i hi).trans hsize
    exact ⟨hsize'.trans hsize, List.forall_mem_append.2 ⟨hfirst, hrest'⟩⟩
  · intro i _
    exact ⟨Destination.size_writeAll .., List.forall_mem_singleton.2 rfl⟩

/-- Steps make their invocations in order, and all of them if no fault stops them. Each step makes
at most one. -/
theorem map_step_invocations (steps : List Step) (f : Frame) :
    (invocations t steps f).map (·.step) <+: steps ∧
      ((executeAll t steps f).result = none → (invocations t steps f).map (·.step) = steps) := by
  induction steps generalizing f with
  | nil => exact ⟨List.nil_prefix, fun _ => rfl⟩
  | cons s steps ih =>
    rw [invocations, executeAll]
    rcases execute_cases t s f with ⟨hi, scratch, fault, hexecute⟩ | ⟨i, hi, rfl, rfl, -, hexecute⟩
    · rw [hi, hexecute, Progress.andThen_of_some rfl]
      refine ⟨List.nil_prefix, fun hend => ?_⟩
      cases hend
    · rw [hi]
      cases hresult : (i.step.execute t i.frame).result with
      | some fault =>
        rw [Progress.andThen_of_some hresult, hresult]
        refine ⟨List.prefix_append [i.step] steps, fun hend => ?_⟩
        cases hend
      | none =>
        rw [Progress.andThen_of_none hresult]
        obtain ⟨hinitial, hall⟩ := ih (i.step.execute t i.frame).state
        refine ⟨?_, fun hend => ?_⟩
        · exact (List.prefix_append_right_inj [i.step]).2 hinitial
        · exact congrArg (i.step :: ·) (hall hend)

end Step

end NodeGraph
