import NodeGraph.Proofs.Session.Calls
import NodeGraph.Proofs.Session.Faultless

/-!
# Installing a plan forgets what was before

What a session answers to calls depends on its core, which is all of it but the scratch lists, the
readout, the count of passes and whether planning is reported in numbers (`Call.blind`). Passes use
the scratch lists, but clear them first, so that what another pass has left there shows nowhere.
Installing a plan leaves a core that consists of the plan, the table of operations, the random
stream and the pacer, and of nothing else that was there. Two sessions that agree in the last three
therefore cannot be told apart once a plan has been installed in both, except by readouts up to the
next pass and by a fixed difference of their counts (`Session.install_forgets`).

That a computation depends on the core alone is `Session.Blind`. It is shown of the parts of a call
and then of the call, and carries over to any number of calls (`Session.answers_of_core_eq`).
-/

namespace NodeGraph

namespace Session

/-- The session after calls in turn. -/
def after (s : Session) (calls : List Call) : Session :=
  calls.foldl (fun s c => (c.perform s).state) s

/-- The answers to calls in turn, each in the session that the call before has left. -/
def answers (s : Session) : List Call → List Answer
  | [] => []
  | c :: calls => (c.perform s).result :: answers (c.perform s).state calls

/-- What bears on the answers of a session: all but what is in the scratch lists, its record and
whether planning is reported in numbers. -/
def core (s : Session) : Session :=
  { s with scratch := {}, readout := .zero, passes := 0, logStats := false }

/-- A computation that depends on the core, and on the rest only in what it does to the rest. -/
def Blind {α : Type} (x : Logged Session α) : Prop :=
  ∀ s, (x s).result = (x s.core).result ∧ (x s).state.core = (x s.core).state.core

namespace Blind

variable {α β : Type}

/-- To give something back is blind. -/
theorem pure (a : α) : Blind (return a) :=
  fun _ => ⟨rfl, rfl⟩

/-- One blind computation after another is blind. -/
theorem bind {x : Logged Session α} {f : α → Logged Session β} (hx : Blind x)
    (hf : ∀ a, Blind (f a)) : Blind (x >>= f) := by
  intro s
  obtain ⟨hresult, hcore⟩ := hx s
  obtain ⟨hresult₁, hcore₁⟩ := hf (x s.core).result (x s).state
  obtain ⟨hresult₂, hcore₂⟩ := hf (x s.core).result (x s.core).state
  rw [hcore] at hresult₁ hcore₁
  show (f (x s).result (x s).state).result = (f (x s.core).result (x s.core).state).result ∧
    (f (x s).result (x s).state).state.core = (f (x s.core).result (x s.core).state).state.core
  rw [hresult]
  exact ⟨hresult₁.trans hresult₂.symm, hcore₁.trans hcore₂.symm⟩

/-- Installing a plan is blind, and so are its reports. -/
theorem install (p : Plan) : Blind (Session.install p) :=
  fun _ => ⟨rfl, rfl⟩

/-- Removing the plan is blind. -/
theorem clear : Blind (Logged.update Session.clear) :=
  fun _ => ⟨rfl, rfl⟩

/-- Letting time go by is blind, since the pacer is in the core. -/
theorem advance (time : Duration) : Blind (Session.advance time) :=
  fun _ => ⟨rfl, rfl⟩

/-- Planning a graph and installing the plan is blind: what is reported is no part of the answer. -/
theorem planAndInstall (g : Graph) : Blind (Session.planAndInstall g) := by
  intro s
  unfold Session.planAndInstall
  rw [show s.core.table = s.table from rfl]
  cases s.table.plan g with
  | error defect => exact ⟨rfl, rfl⟩
  | ok p => exact ⟨rfl, rfl⟩

/-- Changing the rate is blind, whether or not the rate can be used. -/
theorem tryRate (rate : Float32) : Blind (Session.tryRate rate) := by
  intro s
  unfold Session.tryRate Session.setRate
  rw [show s.core.pacer = s.pacer from rfl]
  cases s.pacer.setRate rate with
  | error problem => exact ⟨rfl, rfl⟩
  | ok p => exact ⟨rfl, rfl⟩

/-- Running a pass is blind: whatever is in the scratch lists when it starts, they are cleared
before they are used. -/
theorem runOnce : Blind Session.runOnce := by
  intro s
  unfold Session.runOnce
  rw [show s.core.fault = s.fault from rfl, show s.core.plan = s.plan from rfl]
  cases s.fault with
  | some fault => exact ⟨rfl, rfl⟩
  | none =>
    cases s.plan with
    | none => exact ⟨rfl, rfl⟩
    | some p =>
      have hbare : (p.pass s.table s.frame).bare = (p.pass s.core.table s.core.frame).bare :=
        p.bare_pass s.table rfl
      obtain ⟨hresult, hstate, -⟩ := Progress.bare_eq_iff.1 hbare
      obtain ⟨hstore, hcontext⟩ := Frame.bare_eq_iff.1 hstate
      dsimp only [withFrame]
      rw [hresult, hstore, hcontext]
      cases (p.pass s.core.table s.core.frame).result with
      | none => exact ⟨rfl, rfl⟩
      | some fault => exact ⟨rfl, rfl⟩

/-- Obeying a command is blind. -/
theorem obey (c : Command) : Blind (Session.obey c) := by
  cases c with
  | install p => exact install p
  | clear => exact clear
  | setRate rate =>
    intro s
    refine ⟨rfl, ?_⟩
    rw [← state_tryRate, ← state_tryRate]
    exact (tryRate rate s).2

/-- Obeying commands is blind. -/
theorem obeyAll (commands : List Command) : Blind (Session.obeyAll commands) := by
  induction commands with
  | nil => exact pure ()
  | cons c commands ih => exact (obey c).bind fun _ => ih

/-- A frame is blind, as its parts are. -/
theorem tick (commands : List Command) (time : Duration) :
    Blind (Session.tick commands time) := by
  refine (obeyAll commands).bind fun _ => (advance time).bind fun due => ?_
  cases due with
  | true => exact runOnce
  | false => exact pure false

end Blind

end Session

/-- Every call is blind. -/
theorem Call.blind (c : Call) : Session.Blind c.perform := by
  cases c with
  | install p => exact (Session.Blind.install p).bind fun _ => .pure _
  | planAndInstall g => exact (Session.Blind.planAndInstall g).bind fun _ => .pure _
  | clear => exact Session.Blind.clear.bind fun _ => .pure _
  | setRate rate => exact (Session.Blind.tryRate rate).bind fun _ => .pure _
  | runOnce => exact Session.Blind.runOnce.bind fun _ => .pure _
  | tick commands time => exact (Session.Blind.tick commands time).bind fun _ => .pure _

namespace Session

variable {s s' : Session}

/-- Sessions with the same core answer a call alike, and have the same core after it. -/
theorem perform_of_core_eq (h : s.core = s'.core) (c : Call) :
    (c.perform s).result = (c.perform s').result ∧
      (c.perform s).state.core = (c.perform s').state.core := by
  obtain ⟨hresult, hcore⟩ := c.blind s
  obtain ⟨hresult', hcore'⟩ := c.blind s'
  rw [h] at hresult hcore
  exact ⟨hresult.trans hresult'.symm, hcore.trans hcore'.symm⟩

/-- Sessions with the same core answer calls alike, and have the same core after them. -/
theorem answers_of_core_eq (h : s.core = s'.core) (calls : List Call) :
    s.answers calls = s'.answers calls ∧ (s.after calls).core = (s'.after calls).core := by
  induction calls generalizing s s' with
  | nil => exact ⟨rfl, h⟩
  | cons c calls ih =>
    obtain ⟨hresult, hcore⟩ := perform_of_core_eq h c
    obtain ⟨hanswers, hafter⟩ := ih hcore
    refine ⟨?_, hafter⟩
    rw [answers, answers, hresult, hanswers]

/-- The sink's slots of sessions with the same core read the same. -/
theorem reading_of_core_eq (h : s.core = s'.core) : s.reading = s'.reading :=
  show s.core.reading = s'.core.reading from congrArg reading h

/-- A call whose answer is that a pass came to its end leaves the same readout in sessions with the
same core, whatever it was before. Other calls leave the readout as it was. -/
theorem readout_perform_of_core_eq (h : s.core = s'.core) (c : Call)
    (hreadout : s.readout = s'.readout ∨ (c.perform s).result = .ran true) :
    (c.perform s).state.readout = (c.perform s').state.readout := by
  obtain ⟨hresult, hcore⟩ := perform_of_core_eq h c
  rw [(c.evolves s).readout, (c.evolves s').readout, hresult, reading_of_core_eq hcore]
  rcases hreadout with hreadout | hran
  · rw [hreadout]
  · rw [← hresult, hran]
    rfl

/-- From the first pass that came to its end on, sessions with the same core have the same
readout. -/
theorem readout_after_of_core_eq (h : s.core = s'.core) (calls : List Call)
    (hreadout : s.readout = s'.readout ∨ .ran true ∈ s.answers calls) :
    (s.after calls).readout = (s'.after calls).readout := by
  induction calls generalizing s s' with
  | nil => exact hreadout.resolve_right List.not_mem_nil
  | cons c calls ih =>
    have hcore := (perform_of_core_eq h c).2
    rw [answers, List.mem_cons, ← or_assoc] at hreadout
    rcases hreadout with hreadout | hlater
    · exact ih hcore (.inl (readout_perform_of_core_eq h c (hreadout.imp_right Eq.symm)))
    · exact ih hcore (.inr hlater)

/-- Calls leave the table as it is. -/
theorem table_after (s : Session) (calls : List Call) : (s.after calls).table = s.table := by
  induction calls generalizing s with
  | nil => rfl
  | cons c calls ih => exact (ih (c.perform s).state).trans (c.evolves s).table

/-- The count of passes grows by the number of answers that one came to its end. -/
theorem passes_after (s : Session) (calls : List Call) :
    (s.after calls).passes = s.passes + (s.answers calls).countP Answer.ended := by
  induction calls generalizing s with
  | nil => rfl
  | cons c calls ih =>
    have hfirst := (c.evolves s).passes
    show ((c.perform s).state.after calls).passes = _
    rw [ih, hfirst, answers, List.countP_cons]
    cases (c.perform s).result.ended with
    | true =>
      rw [if_pos rfl]
      show s.passes + 1 + _ = _
      omega
    | false => rfl

/-- Installing a plan leaves a core in which nothing is left of what was before, but for the table,
the random stream and the pacer. -/
theorem core_install (htable : s.table = s'.table)
    (hstream : s.context.stream = s'.context.stream) (hpacer : s.pacer = s'.pacer) (p : Plan) :
    (Session.install p s).state.core = (Session.install p s').state.core := by
  show (s.withPlan p).core = (s'.withPlan p).core
  unfold core withPlan Context.resetTally
  rw [htable, hstream, hpacer]

/-- Once a plan has been installed in two sessions with the same operations, the same random stream
and the same pacer, they answer calls alike, whatever was before, and have the same slots, the same
fault and the same counts of fallbacks after each of them. They have the same readout from the first
pass on that comes to its end, and the number of passes since is the same. -/
theorem install_forgets (htable : s.table = s'.table)
    (hstream : s.context.stream = s'.context.stream) (hpacer : s.pacer = s'.pacer) (p : Plan)
    (calls : List Call) :
    let x := (Session.install p s).state
    let x' := (Session.install p s').state
    x.answers calls = x'.answers calls ∧
      (x.after calls).store = (x'.after calls).store ∧
      (x.after calls).fault = (x'.after calls).fault ∧
      (x.after calls).context.tally = (x'.after calls).context.tally ∧
      (.ran true ∈ x.answers calls → (x.after calls).readout = (x'.after calls).readout) ∧
      ∃ n, (x.after calls).passes = s.passes + n ∧ (x'.after calls).passes = s'.passes + n := by
  intro x x'
  have hcore : x.core = x'.core := core_install htable hstream hpacer p
  obtain ⟨hanswers, hafter⟩ := answers_of_core_eq hcore calls
  refine ⟨hanswers, congrArg (·.store) hafter, congrArg (·.fault) hafter,
    congrArg (·.context.tally) hafter,
    fun hran => readout_after_of_core_eq hcore calls (.inr hran),
    (x.answers calls).countP Answer.ended, passes_after x calls, ?_⟩
  rw [hanswers]
  exact passes_after x' calls

end Session

/-- A plan with as many slots as `Plan.constantToSink`. Its last step writes to a slot that it does
not have. -/
def Plan.overrun : Plan where
  steps :=
    [{ node := ⟨2⟩, op := ⟨2, 1⟩, operands := [.literal (.integer 7)],
       results := [⟨⟨0⟩, .vector3⟩], parameter := none },
     { node := ⟨1⟩, op := ⟨1, 1⟩, operands := [.slot ⟨0⟩], results := [⟨⟨9⟩, .integer⟩],
       parameter := none }]
  parameters := []
  slotCount := 3
  nodeCount := 2

/-- One session is new. The other one has run a pass, and then another plan that stopped with a
fault, after it had written to a slot and counted fallbacks, and with what its last step took and
gave still in the scratch lists. These are not cleared when a plan is installed. With a plan
installed in both, the sessions answer alike. -/
theorem Session.install_forgets_overrun :
    let s := Session.start .constantAndSink (.ofSeed 0)
    let s' := s.after [.install .constantToSink, .runOnce, .install .overrun, .runOnce]
    let x := (Session.install .constantToSink s).state
    let x' := (Session.install .constantToSink s').state
    let calls := [.tick [] .zero, .tick [.clear, .install .constantToSink] .longest, .runOnce]
    (s.table = s'.table ∧ s.context.stream = s'.context.stream ∧ s.pacer = s'.pacer) ∧
      (s'.fault = some (.slotOutOfBounds ⟨9⟩ 3) ∧ s'.store ≠ .ofSize 3 ∧
        s'.context.tally = ⟨2, 2⟩ ∧ s'.passes = 1) ∧
      (x.scratch = {} ∧
        x'.scratch = ⟨[.vector3 ⟨0, 0, 0⟩], [.vector3 ⟨0, 0, 0⟩]⟩) ∧
      x.answers calls = [.ran false, .ran true, .ran true] ∧
      x'.answers calls = [.ran false, .ran true, .ran true] ∧
      (x.after calls).readout = (x'.after calls).readout := by
  intro s s' x x' calls
  have htable : s.table = s'.table := (s.table_after _).symm
  have hstream : s.context.stream = s'.context.stream := by decide +kernel
  have hpacer : s.pacer = s'.pacer := by decide +kernel
  have hran : x.answers calls = [.ran false, .ran true, .ran true] := by decide +kernel
  obtain ⟨hanswers, -, -, -, hreadout, -⟩ :=
    Session.install_forgets htable hstream hpacer .constantToSink calls
  have hended : .ran true ∈ x.answers calls := hran ▸ by decide
  exact ⟨⟨htable, hstream, hpacer⟩, by decide +kernel, by decide +kernel, hran,
    hanswers.symm.trans hran,
    hreadout hended⟩

end NodeGraph
