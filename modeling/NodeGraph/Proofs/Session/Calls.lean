import NodeGraph.Proofs.Pass.Remains
import NodeGraph.Proofs.Session.Pacing

/-!
# Calls to a session

Whatever a session does it does in a `Call`, and each call has an `Answer`. A move of a host is a
call to its session, or leaves the session alone, or drops it (`Move.session_perform`).

A session counts the calls whose answer is that a pass came to its end, and has read the sink's
slots at the end of the last of them (`Call.evolves`). What a call does to the rest of a session is
said where it is needed, by cases on `Session.runOnce_cases` and `Session.tick_eq`.
-/

namespace NodeGraph

/-- What can be asked of a session. A frame comes with the commands that the session takes. -/
inductive Call where
  | install (p : Plan)
  | planAndInstall (g : Graph)
  | clear
  | setRate (rate : Float32)
  | runOnce
  | tick (commands : List Command) (time : Duration)

/-- What a session answers to a call. Reports are no part of it. -/
inductive Answer where
  | done
  | planned (result : Except Defect Unit)
  | rated (result : Except SettingsProblem Unit)
  /-- Whether a pass came to its end. To run a pass and to let time go by are answered so. -/
  | ran (ended : Bool)
  deriving DecidableEq

/-- Whether the answer is that a pass came to its end. -/
def Answer.ended : Answer → Bool
  | .ran ended => ended
  | .done | .planned _ | .rated _ => false

/-- Does what a call asks for. -/
def Call.perform : Call → Logged Session Answer
  | .install p => do
    Session.install p
    return .done
  | .planAndInstall g => return .planned (← Session.planAndInstall g)
  | .clear => do
    Logged.update Session.clear
    return .done
  | .setRate rate => return .rated (← Session.tryRate rate)
  | .runOnce => return .ran (← Session.runOnce)
  | .tick commands time => return .ran (← Session.tick commands time)

namespace Session

/-- Whether no pass can run, since there is no plan or the session is faulted. -/
def Idle (s : Session) : Prop :=
  s.plan = none ∨ s.fault.isSome

/-- The readout of the sink's slots as they are, which need not be that of the last pass. -/
def reading (s : Session) : Readout :=
  match s.plan with
  | none => .zero
  | some p => (Readout.read p s.store s.context).result

/-- An idle session runs no pass, and stays as it is. -/
theorem runOnce_of_idle {s : Session} (h : s.Idle) :
    runOnce s = { result := false, state := s } := by
  unfold runOnce
  rcases h with hplan | hfault
  · rw [hplan]
    cases s.fault <;> rfl
  · obtain ⟨fault, hfault⟩ := Option.isSome_iff_exists.1 hfault
    rw [hfault]

/-- What running a pass comes to. An idle session stays as it is. In another one the pass comes to
its end and is read, or it stops with a fault. -/
theorem runOnce_cases (s : Session) :
    (s.Idle ∧ runOnce s = { result := false, state := s }) ∨
    ∃ p, s.fault = none ∧ s.plan = some p ∧
      let pass := p.pass s.table s.frame
      let read := Readout.read p pass.state.store pass.state.context
      ((runOnce s).result = true ∧
        (runOnce s).state =
          { s with
            store := pass.state.store, scratch := pass.state.scratch, context := read.state,
            readout := read.result, passes := s.passes + 1 }) ∨
      ∃ fault, (runOnce s).result = false ∧
        (runOnce s).state =
          { s with
            store := pass.state.store, scratch := pass.state.scratch,
            context := pass.state.context, fault := some fault } := by
  cases hplan : s.plan with
  | none => exact .inl ⟨.inl hplan, runOnce_of_idle (.inl hplan)⟩
  | some p =>
    cases hfault : s.fault with
    | some fault =>
      have hidle : s.Idle := .inr (Option.isSome_of_eq_some hfault)
      exact .inl ⟨hidle, runOnce_of_idle hidle⟩
    | none =>
      refine .inr ⟨p, rfl, rfl, ?_⟩
      unfold runOnce withFrame
      rw [hplan, hfault]
      dsimp only
      cases (p.pass s.table s.frame).result with
      | none => exact .inl ⟨rfl, rfl⟩
      | some fault => exact .inr ⟨fault, rfl, rfl⟩

/-- An attempt to change the rate changes nothing but the pacer. -/
theorem state_tryRate_eq (rate : Float32) (s : Session) :
    (tryRate rate s).state = { s with pacer := s.pacer.tryRate rate } := by
  unfold tryRate setRate Pacer.tryRate
  cases s.pacer.setRate rate with
  | error problem => rfl
  | ok p => rfl

/-- A frame obeys its commands, lets time go by, and then runs a pass if one is due. -/
theorem tick_eq (commands : List Command) (time : Duration) (s : Session) :
    let ready := (obeyAll commands s).state
    let paced : Session := { ready with pacer := (ready.pacer.tick time).2 }
    (tick commands time s).result = ((ready.pacer.tick time).1 && (runOnce paced).result) ∧
      (tick commands time s).state =
        if (ready.pacer.tick time).1 then (runOnce paced).state else paced := by
  intro ready paced
  have htick : (tick commands time s).result =
      ((if (ready.pacer.tick time).1 then runOnce else return false : Logged Session Bool)
        paced).result ∧
      (tick commands time s).state =
        ((if (ready.pacer.tick time).1 then runOnce else return false : Logged Session Bool)
          paced).state := ⟨rfl, rfl⟩
  rw [htick.1, htick.2]
  cases (ready.pacer.tick time).1 with
  | true => exact ⟨rfl, rfl⟩
  | false => exact ⟨rfl, rfl⟩

/-- What a session that becomes another one keeps, and how it records a pass that came to its
end. -/
structure Evolves (s : Session) (ended : Bool) (s' : Session) : Prop where
  table : s'.table = s.table
  passes : s'.passes = s.passes + ended.toNat
  readout : s'.readout = if ended then s'.reading else s.readout

namespace Evolves

variable {s s' s'' : Session} {ended : Bool}

/-- Where no pass came to its end, the record stays as it is. -/
theorem of_eq (htable : s'.table = s.table) (hpasses : s'.passes = s.passes)
    (hreadout : s'.readout = s.readout) : s.Evolves false s' :=
  ⟨htable, hpasses, hreadout⟩

/-- What comes before a pass is not on record. -/
theorem trans (h : s.Evolves false s') (h' : s'.Evolves ended s'') : s.Evolves ended s'' where
  table := h'.table.trans h.table
  passes := by
    rw [h'.passes, h.passes]
    rfl
  readout := by
    rw [h'.readout, h.readout]
    rfl

/-- Running a pass is on record if it comes to its end. -/
theorem runOnce (s : Session) :
    s.Evolves (Session.runOnce s).result (Session.runOnce s).state := by
  rcases runOnce_cases s with
    ⟨-, h⟩ | ⟨p, -, hplan, ⟨hresult, hstate⟩ | ⟨fault, hresult, hstate⟩⟩
  · rw [h]
    exact of_eq rfl rfl rfl
  · rw [hresult, hstate]
    refine ⟨rfl, rfl, ?_⟩
    -- Reading again what has been read gives the same, though the context may have changed.
    rw [if_pos rfl]
    unfold reading
    rw [hplan]
    exact Readout.result_read ..
  · rw [hresult, hstate]
    exact of_eq rfl rfl rfl

/-- Obeying a command is not on record, since no command runs a pass. -/
theorem obey (c : Command) (s : Session) : s.Evolves false (Session.obey c s).state := by
  cases c with
  | install p => exact of_eq rfl rfl rfl
  | clear => exact of_eq rfl rfl rfl
  | setRate rate =>
    rw [← state_tryRate, state_tryRate_eq]
    exact of_eq rfl rfl rfl

/-- Obeying commands is not on record. -/
theorem obeyAll (commands : List Command) (s : Session) :
    s.Evolves false (Session.obeyAll commands s).state := by
  induction commands generalizing s with
  | nil => exact of_eq rfl rfl rfl
  | cons c commands ih => exact (obey c s).trans (ih (Session.obey c s).state)

/-- A frame is on record if a pass comes to its end in it. -/
theorem tick (commands : List Command) (time : Duration) (s : Session) :
    s.Evolves (Session.tick commands time s).result (Session.tick commands time s).state := by
  obtain ⟨hresult, hstate⟩ := tick_eq commands time s
  rw [hresult, hstate]
  have hready := obeyAll commands s
  generalize (Session.obeyAll commands s).state = ready at hready
  have hpaced : s.Evolves false { ready with pacer := (ready.pacer.tick time).2 } :=
    hready.trans (of_eq rfl rfl rfl)
  cases (ready.pacer.tick time).1 with
  | true => exact hpaced.trans (runOnce _)
  | false => exact hpaced

end Evolves

end Session

/-- A call is on record exactly if it answers that a pass came to its end. -/
theorem Call.evolves (c : Call) (s : Session) :
    s.Evolves (c.perform s).result.ended (c.perform s).state := by
  cases c with
  | install p => exact .of_eq rfl rfl rfl
  | clear => exact .of_eq rfl rfl rfl
  | planAndInstall g =>
    show s.Evolves false (Session.planAndInstall g s).state
    unfold Session.planAndInstall
    cases s.table.plan g with
    | error defect => exact .of_eq rfl rfl rfl
    | ok p => exact .of_eq rfl rfl rfl
  | setRate rate =>
    show s.Evolves false (Session.tryRate rate s).state
    rw [Session.state_tryRate_eq]
    exact .of_eq rfl rfl rfl
  | runOnce => exact .runOnce s
  | tick commands time => exact .tick commands time s

namespace Move

/-- The call that a move makes to the session, which takes the commands that wait for it. -/
def call? (waiting : List Command) : Move → Option Call
  | .install p => some (.install p)
  | .planAndInstall g => some (.planAndInstall g)
  | .clear => some .clear
  | .setRate rate => some (.setRate rate)
  | .runOnce => some .runOnce
  | .tick time => some (.tick waiting time)
  | .send _ | .planAndSend .. | .drop => none

/-- Whether the move tells that a pass came to its end. -/
def ended : Move → Host → Bool
  | .runOnce, h => (Host.withSession Session.runOnce h).result = some true
  | .tick time, h => (Host.tick time h).result = some true
  | _, _ => false

/-- A session that is there after a move was there before. It has been called, or left alone. -/
theorem session_perform {m : Move} {h : Host} {s' : Session}
    (hs' : (m.perform h).session = some s') :
    ∃ s, h.session = some s ∧
      ((∃ c, m.call? h.waiting = some c ∧ s' = (c.perform s).state ∧
          m.ended h = (c.perform s).result.ended) ∨
        (m.call? h.waiting = none ∧ s' = s ∧ m.ended h = false)) := by
  cases hs : h.session with
  | none =>
    obtain ⟨session, mailbox, attached⟩ := h
    cases hs
    cases m <;> cases hs'
  | some s =>
    refine ⟨s, rfl, ?_⟩
    cases m with
    | install | planAndInstall | clear | setRate =>
      simp only [perform, Host.withSession, hs] at hs'
      exact .inl ⟨_, rfl, (Option.some.inj hs').symm, rfl⟩
    | runOnce =>
      simp only [perform, Host.withSession, hs] at hs'
      refine .inl ⟨_, rfl, (Option.some.inj hs').symm, ?_⟩
      simp only [ended, Host.withSession, hs]
      show decide (some (Session.runOnce s).result = some true) = (Session.runOnce s).result
      cases (Session.runOnce s).result <;> rfl
    | tick time =>
      obtain ⟨hresult, hstate⟩ := Host.tick_of_session hs time
      simp only [perform, hstate] at hs'
      refine .inl ⟨_, rfl, (Option.some.inj hs').symm, ?_⟩
      simp only [ended, hresult]
      show decide (some (Session.tick h.waiting time s).result = some true) =
        (Session.tick h.waiting time s).result
      cases (Session.tick h.waiting time s).result <;> rfl
    | send | planAndSend =>
      exact .inr ⟨rfl, Option.some.inj (hs'.symm.trans hs), rfl⟩
    | drop => cases hs'

/-- No pass comes to its end in a move after which the session is not there. -/
theorem ended_of_session_none {m : Move} {h : Host} (hs' : (m.perform h).session = none) :
    m.ended h = false := by
  obtain ⟨session, mailbox, attached⟩ := h
  cases session with
  | none => cases m <;> rfl
  | some s =>
    cases m with
    | drop => rfl
    | install | planAndInstall | clear | setRate | runOnce | tick | send | planAndSend => cases hs'

end Move

end NodeGraph
