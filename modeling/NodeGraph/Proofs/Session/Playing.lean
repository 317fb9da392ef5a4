import Mathlib.Algebra.Order.Floor.Div
import NodeGraph.CommandLine.Reply
import NodeGraph.Proofs.Session.Faultless
import NodeGraph.Proofs.Session.Pacing
import NodeGraph.Proofs.Session.Repetition

/-!
# Playing frames of one length

A pass is due as soon as the frames since the last one have taken the interval, and what they took
beyond it is dropped. If all frames have one length, there is therefore the same number of frames
from each pass to the next, which is the interval divided by the length and rounded up
(`Pacer.stride`). `Playback.InStep` says this of the frames so far, and every further frame keeps it
(`Playback.InStep.next`). `CommandLine.sessionOf_play` says it of the program's answer.

If frames take no time there is no pass at all, and the stride is zero then, so that the statements
about remainders and multiples hold also in this case.
-/

namespace NodeGraph

namespace Session

variable {t : OpTable} {s : Session}

/-- A sane session with a plan brings a pass to its end. -/
theorem Sane.result_runOnce (h : s.Sane t) (hplan : s.plan.isSome) :
    (Session.runOnce s).result = true := by
  rcases runOnce_cases s with ⟨hidle, -⟩ | ⟨p, -, -, ⟨hresult, -⟩ | ⟨fault, -, hstate⟩⟩
  · rcases hidle with hnone | hfault
    · rw [hnone] at hplan
      cases hplan
    · rw [h.fault] at hfault
      cases hfault
  · exact hresult
  · have hsane := h.runOnce.fault
    rw [hstate] at hsane
    cases hsane

/-- A sane session with a plan brings a pass to its end in a frame exactly if one is due. -/
theorem Sane.result_tick (h : s.Sane t) (hplan : s.plan.isSome) (time : Duration) :
    (Session.tick [] time s).result = (s.pacer.tick time).1 := by
  have hpass := (h.withPacer (s.pacer.tick time).2).result_runOnce hplan
  rw [(tick_eq [] time s).1]
  exact (congrArg _ hpass).trans (Bool.and_true _)

/-- A frame without commands keeps the plan. -/
theorem plan_tick (time : Duration) (s : Session) : (tick [] time s).state.plan = s.plan := by
  rw [(tick_eq [] time s).2]
  split
  · rw [plan_runOnce]
    rfl
  · rfl

end Session

namespace Pacer

variable {interval time : Duration}

/-- The number of frames of a length from one pass to the next, zero if frames take no time. -/
def stride (interval time : Duration) : Nat :=
  interval.nanos ⌈/⌉ time.nanos

/-- If no time goes by, there is no next pass. -/
theorem stride_of_nanos_eq_zero (h : time.nanos = 0) : stride interval time = 0 := by
  rw [stride, h, ceilDiv_zero]

/-- So many frames take the interval exactly if they are no fewer than the stride. -/
theorem stride_le_iff (h : 0 < time.nanos) {count : Nat} :
    stride interval time ≤ count ↔ interval.nanos ≤ count * time.nanos := by
  rw [stride, ceilDiv_le_iff_le_mul h, Nat.mul_comm]

/-- A stride is not nothing if time goes by. -/
theorem stride_pos (hinterval : 0 < interval.nanos) (htime : 0 < time.nanos) :
    0 < stride interval time := by
  refine Nat.pos_of_ne_zero fun hzero => ?_
  have hle : interval.nanos ≤ 0 * time.nanos := (stride_le_iff htime).1 (Nat.le_of_eq hzero)
  omega

/-- Only if time goes by can strides be made. -/
theorem nanos_pos_of_stride_dvd {k : Nat} (h : stride interval time ∣ k + 1) : 0 < time.nanos := by
  refine Nat.pos_of_ne_zero fun hzero => ?_
  rw [stride_of_nanos_eq_zero hzero, Nat.zero_dvd] at h
  cases h

end Pacer

/-- The next number is by one further into its stride, unless it starts a new one. -/
theorem mod_add_one_of_not_dvd {c k : Nat} (h : ¬c ∣ k + 1) : (k + 1) % c = k % c + 1 := by
  have hdiv : (k + 1) / c = k / c := by rw [Nat.succ_div, if_neg h, Nat.add_zero]
  have hnext := Nat.div_add_mod (k + 1) c
  have hthis := Nat.div_add_mod k c
  rw [hdiv] at hnext
  omega

/-- A number ends a stride exactly if the stride is no longer than what has gone of it. -/
theorem dvd_add_one_iff {c k : Nat} (hc : 0 < c) : c ∣ k + 1 ↔ c ≤ k % c + 1 := by
  have hlt := Nat.mod_lt k hc
  constructor
  · intro hdvd
    by_contra hgt
    have hmod := Nat.add_mod k 1 c
    rw [Nat.mod_eq_zero_of_dvd hdvd, Nat.mod_eq_of_lt (by omega : 1 < c),
      Nat.mod_eq_of_lt (by omega : k % c + 1 < c)] at hmod
    cases hmod
  · intro hle
    by_contra hdvd
    have hnext := Nat.mod_lt (k + 1) hc
    rw [mod_add_one_of_not_dvd hdvd] at hnext
    omega

namespace Pacer

variable {p : Pacer} {interval time : Duration} {k : Nat}

/-- If `k` frames of one length have gone by and the last pass was at the end of a stride, the next
pass is due at the end of the present one. -/
theorem tick_due_iff_stride_dvd (hpos : 0 < p.interval.nanos)
    (h : p.elapsed.nanos = k % stride p.interval time * time.nanos) :
    (p.tick time).1 = true ↔ stride p.interval time ∣ k + 1 := by
  rw [tick_due_iff, h]
  rcases Nat.eq_zero_or_pos time.nanos with hzero | htime
  -- If no time goes by, the interval is never reached, and the stride of zero divides nothing.
  · rw [stride_of_nanos_eq_zero hzero, hzero, Nat.zero_dvd]
    omega
  · rw [dvd_add_one_iff (stride_pos hpos htime), stride_le_iff htime, Nat.succ_mul]

/-- Frame by frame, the pacer counts up to the end of the stride and then from nothing again. -/
theorem nanos_elapsed_tick_eq (hpos : 0 < p.interval.nanos)
    (h : p.elapsed.nanos = k % stride p.interval time * time.nanos) :
    (p.tick time).2.elapsed.nanos = (k + 1) % stride p.interval time * time.nanos := by
  rw [nanos_elapsed_tick, h]
  split
  · rename_i hdue
    rw [tick_due_iff_stride_dvd hpos h] at hdue
    rw [Nat.mod_eq_zero_of_dvd hdue, Nat.zero_mul]
  · rename_i hdue
    rw [tick_due_iff_stride_dvd hpos h] at hdue
    rw [mod_add_one_of_not_dvd hdue, Nat.succ_mul]

end Pacer

namespace Playback

/-- A playback in which a pass came to its end after every stride, and otherwise none. -/
structure InStep (t : OpTable) (interval time : Duration) (p : Playback) : Prop where
  sane : p.session.Sane t
  plan : p.session.plan.isSome
  pace : p.session.pacer.interval = interval
  /-- The pacer has counted the frames of the present stride. -/
  elapsed : p.session.pacer.elapsed.nanos = p.frames % Pacer.stride interval time * time.nanos
  /-- A pass came to its end in the last frame of every stride. -/
  reported : p.passes.toList.map (·.1) =
    (List.range p.frames).filter (Pacer.stride interval time ∣ · + 1)
  passes : p.session.passes = p.frames / Pacer.stride interval time

variable {t : OpTable} {interval time : Duration} {p : Playback}

/-- One more frame is played if there is no fault. -/
theorem next_of_fault_eq_none (h : p.session.fault = none) :
    p.next time =
      let frame := Session.tick [] time p.session
      { session := frame.state
        frames := p.frames + 1
        passes :=
          if frame.result then p.passes.push (p.frames, frame.state.readout) else p.passes } := by
  rw [next, h]
  exact if_neg Bool.false_ne_true

/-- One more frame keeps the step. -/
theorem InStep.next (h : p.InStep t interval time) (hpos : 0 < interval.nanos) :
    (p.next time).InStep t interval time ∧ (p.next time).frames = p.frames + 1 := by
  have hresult := h.sane.result_tick h.plan time
  have hpacer := Session.pacer_tick [] time p.session
  have hrecord := Session.Evolves.tick [] time p.session
  -- The pass of this frame is due exactly if the frame is the last one of a stride.
  have helapsed := h.elapsed
  rw [← h.pace] at hpos helapsed
  have hdue := Pacer.tick_due_iff_stride_dvd hpos helapsed
  have hcount := Pacer.nanos_elapsed_tick_eq hpos helapsed
  rw [h.pace] at hdue hcount
  rw [next_of_fault_eq_none h.sane.fault]
  refine ⟨⟨h.sane.tick (List.forall_mem_nil _) time, ?_, ?_, ?_, ?_, ?_⟩, rfl⟩
  · show (Session.tick [] time p.session).state.plan.isSome
    rw [Session.plan_tick]
    exact h.plan
  · show (Session.tick [] time p.session).state.pacer.interval = interval
    rw [hpacer]
    exact (Pacer.interval_tick _ time).trans h.pace
  · show (Session.tick [] time p.session).state.pacer.elapsed.nanos = _
    rw [hpacer]
    exact hcount
  · show (if (Session.tick [] time p.session).result then _ else p.passes).toList.map (·.1) = _
    rw [hresult, List.range_succ, List.filter_append, ← h.reported]
    by_cases hstride : Pacer.stride interval time ∣ p.frames + 1
    · rw [if_pos (hdue.2 hstride)]
      simp [hstride]
    · rw [if_neg (mt hdue.1 hstride)]
      simp [hstride]
  · show (Session.tick [] time p.session).state.passes = _
    rw [hrecord.passes, hresult, h.passes, Nat.succ_div]
    by_cases hstride : Pacer.stride interval time ∣ p.frames + 1
    · rw [hdue.2 hstride, if_pos hstride]
      rfl
    · rw [Bool.eq_false_iff.2 (mt hdue.1 hstride), if_neg hstride]
      rfl

/-- More frames keep the step, and all of them are played. -/
theorem InStep.advance (h : p.InStep t interval time) (hpos : 0 < interval.nanos) (count : Nat) :
    (p.advance count time).InStep t interval time ∧
      (p.advance count time).frames = p.frames + count := by
  induction count with
  | zero => exact ⟨h, rfl⟩
  | succ count ih =>
    obtain ⟨hstep, hframes⟩ := ih
    obtain ⟨hnext, hmore⟩ := hstep.next hpos
    exact ⟨hnext, hmore.trans (congrArg (· + 1) hframes)⟩

end Playback

namespace CommandLine

variable {t : OpTable} {g : Graph} {p : Plan} {settings : Settings} {interval : Duration}

/-- A graph with a plan and settings with an interval have a session, which has the plan and starts
in step. -/
theorem sessionOf_inStep (hplan : t.plan g = .ok p)
    (hrate : Pacer.intervalOf settings.rate = .ok interval) (entropy : Random.Stream)
    (path : String) (time : Duration) :
    ∃ session, sessionOf t entropy settings path g = .ok session ∧
      session.plan = some p ∧ Playback.InStep t interval time { session } := by
  have hsettings : ∃ s, Session.ofSettings settings t entropy = .ok s ∧
      s.pacer.interval = interval ∧ s.pacer.elapsed = .zero ∧ s.passes = 0 := by
    unfold Session.ofSettings Pacer.ofRate
    rw [hrate]
    exact ⟨_, rfl, rfl, rfl, rfl⟩
  obtain ⟨s, hs, hinterval, helapsed, hpasses⟩ := hsettings
  have hsane : s.Sane t := (Session.New.ofSettings hs).sane
  have hinstalled : Session.planAndInstall g s =
      { result := .ok ()
        state := s.withPlan p
        events := (Session.planAndInstall g s).events } := by
    unfold Session.planAndInstall
    rw [hsane.table, hplan]
    rfl
  have hruns : (s.withPlan p).Sane t := by
    have h := hsane.planAndInstall g
    rwa [hinstalled] at h
  refine ⟨s.withPlan p, ?_, rfl, hruns, rfl, hinterval, ?_, rfl, ?_⟩
  · unfold sessionOf
    rw [hs]
    dsimp only [Except.mapError, bind, Except.bind]
    rw [hinstalled]
    rfl
  · show s.pacer.elapsed.nanos = _
    rw [helapsed, Nat.zero_mod, Nat.zero_mul]
    rfl
  · show s.passes = _
    rw [hpasses, Nat.zero_div]

/-- The lines of frames name the frames in turn, each aligned with four places. -/
theorem map_frameLine (passes : List (Nat × Readout)) :
    passes.map frameLine =
      List.zipWith (fun i (r : Readout) =>
        "[frame " ++ (String.ofList (List.replicate (4 - (toString i).length) ' ') ++ toString i) ++
          "] " ++ r.text ++ "\n") (passes.map (·.1)) (passes.map (·.2)) := by
  induction passes with
  | nil => rfl
  | cons pass passes ih => exact congrArg (frameLine pass :: ·) ih

/-- A graph with a plan is played with settings that have an interval. The frames in which a pass
comes to its end are the last ones of the strides, and there is never a fault. The program answers
without a complaint, and what it prints after the lines of the parameters is a line for each of
these frames, which names the frame, and no other line. -/
theorem sessionOf_play (hplan : t.plan g = .ok p)
    (hrate : Pacer.intervalOf settings.rate = .ok interval) (entropy : Random.Stream)
    (path : String) (time : Duration) :
    ∃ session, sessionOf t entropy settings path g = .ok session ∧
      (∀ count,
        let played := Playback.advance count time { session }
        played.frames = count ∧ played.session.fault = none ∧ played.faultedAt? = none ∧
        played.passes.toList.map (·.1) = (List.range count).filter (fun i =>
          0 < time.nanos ∧ interval.nanos ⌈/⌉ time.nanos ∣ i + 1) ∧
        played.session.passes =
          if time = .zero then 0 else count / (interval.nanos ⌈/⌉ time.nanos)) ∧
      ∀ ticks : UInt32,
        let played := Playback.advance ticks.toNat time { session }
        let frames := (List.range ticks.toNat).filter (fun i =>
          0 < time.nanos ∧ interval.nanos ⌈/⌉ time.nanos ∣ i + 1)
        (play session ticks time).code = 0 ∧ (play session ticks time).error = "" ∧
        ∃ readouts : List Readout, readouts = played.passes.toList.map (·.2) ∧
          readouts.length = frames.length ∧
          ∀ micros, (play session ticks time).output micros =
            String.join (p.parameters.map fun q =>
              "param " ++ (q.name ++ " = " ++ q.value.text) ++ "\n") ++
            String.join (List.zipWith (fun i (r : Readout) =>
              "[frame " ++
                (String.ofList (List.replicate (4 - (toString i).length) ' ') ++ toString i) ++
                "] " ++ r.text ++ "\n") frames readouts) := by
  obtain ⟨session, hsession, hinstalled, hstep⟩ :=
    sessionOf_inStep hplan hrate entropy path time
  have hpos := Pacer.intervalOf_pos hrate
  have hfault (count : Nat) : (Playback.advance count time { session }).faultedAt? = none := by
    rw [Playback.faultedAt?, (hstep.advance hpos count).1.sane.fault]
    rfl
  have hreported (count : Nat) :
      (Playback.advance count time { session }).passes.toList.map (·.1) =
        (List.range count).filter (fun i =>
          0 < time.nanos ∧ interval.nanos ⌈/⌉ time.nanos ∣ i + 1) := by
    obtain ⟨hlast, hframes⟩ := hstep.advance hpos count
    rw [hlast.reported, hframes, Nat.zero_add]
    refine List.filter_congr fun i _ => decide_eq_decide.2 ?_
    exact ⟨fun h => ⟨Pacer.nanos_pos_of_stride_dvd h, h⟩, fun h => h.2⟩
  refine ⟨session, hsession, fun count => ?_, fun ticks => ?_⟩
  · obtain ⟨hlast, hframes⟩ := hstep.advance hpos count
    rw [Nat.zero_add] at hframes
    refine ⟨hframes, hlast.sane.fault, hfault count, hreported count, ?_⟩
    rw [hlast.passes, hframes]
    split
    · rename_i hzero
      rw [Pacer.stride_of_nanos_eq_zero (congrArg Duration.nanos hzero), Nat.div_zero]
    · rfl
  · have hparameters : session.parameters = p.parameters := by
      rw [Session.parameters, hinstalled]
      rfl
    have hlines := map_frameLine (Playback.advance ticks.toNat time { session }).passes.toList
    rw [hreported] at hlines
    unfold play
    dsimp only
    rw [hfault, hparameters, hlines]
    refine ⟨rfl, rfl, _, rfl, ?_, fun _ => rfl⟩
    rw [← hreported, List.length_map, List.length_map]

/-- At three passes a second, three frames take the interval to the nanosecond. Of eight frames, the
third and the sixth have a line. -/
theorem sessionOf_play_thirds :
    let settings : Settings := {}
    let time : Duration := .ofNanos 111111111
    OpTable.builtin.plan .constantToSink = .ok .constantToSink ∧
      Pacer.intervalOf settings.rate = .ok (.ofNanos 333333333) ∧
      ∃ session, sessionOf .builtin (.ofSeed 0) settings "graph" .constantToSink = .ok session ∧
        (Playback.advance 8 time { session }).passes.toList.map (·.1) = [2, 5] ∧
        (Playback.advance 8 time { session }).session.passes = 2 ∧
        (play session 8 time).code = 0 ∧
        ∀ micros, (play session 8 time).output micros =
          "[frame    2] scalar=7 vector2=(0, 0) vector3=(0, 0, 0)\n" ++
          "[frame    5] scalar=7 vector2=(0, 0) vector3=(0, 0, 0)\n" := by
  intro settings time
  have hplan : OpTable.builtin.plan .constantToSink = .ok .constantToSink := by decide +kernel
  have hrate : Pacer.intervalOf settings.rate = .ok (.ofNanos 333333333) := by decide +kernel
  have hreadouts : (sessionOf .builtin (.ofSeed 0) settings "graph" .constantToSink).toOption.map
      (fun session => (Playback.advance 8 time { session }).passes.toList.map (·.2)) =
        some (List.replicate 2 ⟨7, ⟨0, 0⟩, ⟨0, 0, 0⟩⟩) := by decide +kernel
  obtain ⟨session, hsession, hplayed, hreply⟩ :=
    sessionOf_play hplan hrate (.ofSeed 0) "graph" time
  obtain ⟨-, -, -, hreported, hpasses⟩ := hplayed 8
  obtain ⟨hcode, -, readouts, hread, -, houtput⟩ := hreply 8
  rw [hsession] at hreadouts
  have hread := hread.trans (Option.some.inj hreadouts)
  refine ⟨hplan, hrate, session, hsession, ?_, ?_, hcode, fun micros => ?_⟩
  · rw [hreported]
    decide +kernel
  · rw [hpasses]
    decide +kernel
  · rw [houtput, hread]
    decide +kernel

end CommandLine

end NodeGraph
