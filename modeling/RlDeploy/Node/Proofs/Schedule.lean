/-
The timestep schedule: which timestep each control tick asks for, and
when the ticks end.

# The counter

`ticked` lists the inference calls of a log without the first one, the
dry run's. Along every run that returns, the node has asked for the
start timestep in the dry run and then, in its `k` control ticks, for
`start`, `start + 1`, …, `start + k - 1`; its timestep is the next one
(`Asked`, `asked_run`). The count `k` is the `ticks` of `Track`, so both
sides move by the one case analysis of the timer callback.

# The end

A tick infers, advances and then compares, so even a start past the last
timestep gives one tick: the number of ticks is at most
`max 1 (maxTimestep - startTimestep)`, and the done flag is set in the
tick that reaches it. From then on no callback takes an action
(`frozen_run`).
-/
import RlDeploy.Node.Proofs.Lag

namespace RlDeploy

open Lib

variable {F D : Type} [Scalar F D] [Eigen F]

namespace RLControllerNode

-- ============================================================ the calls

omit [Scalar F D] [Eigen F] in
/-- The inference calls of the control ticks: all but the first, which
the initialisation makes. -/
def ticked (log : List (Act F D)) : List (List F × Int) :=
  (asked log).tail

variable {net : Policy F} {s m : Int} {evs : List (Event D)}
  {log l : List (Act F D)} {n n' : RLControllerNode F D}

/-- The log of a run over `evs`: the dry run's call, and a call and a
command for each control tick, at consecutive timesteps. -/
structure Asked (net : Policy F) (s m : Int) (evs : List (Event D))
    (log : List (Act F D)) : Prop where
  none : (seen evs).ready = 0 → asked log = []
  dryRun : 0 < (seen evs).ready →
    asked log = (List.replicate net.obsSize 0, s) :: ticked log
  timesteps : (ticked log).map Prod.snd
    = (List.range (ticks s m (seen evs).ready)).map
        fun i : Nat => s + (i : Int)
  commands : (published log).length = ticks s m (seen evs).ready

omit [Eigen F] in
/-- An event without a call that leaves the number of ticks. -/
theorem Asked.quiet (h : Asked net s m evs log) {evs' : List (Event D)}
    (hready : (seen evs').ready = (seen evs).ready) :
    Asked net s m evs' (log ++ []) := by
  rw [List.append_nil]
  refine ⟨?_, ?_, ?_, ?_⟩
  all_goals rw [hready]
  · exact h.none
  · exact h.dryRun
  · exact h.timesteps
  · exact h.commands

/-- A timer callback that returns asks for the timestep that is due, or
for nothing. -/
theorem Asked.timerStep (h : Asked net s m evs log)
    (ht : Track s m evs n) (hts : TimerStep net n l n') :
    Asked net s m (evs ++ [.timer]) (log ++ l) := by
  have hboth := ht.both
  have hnext : (n.jointReceived && n.imuReceived) = true →
      (seen (evs ++ [.timer])).ready = (seen evs).ready + 1 :=
    fun hw => seen_timer (hboth.symm.trans hw)
  cases hts with
  | waiting hw =>
      apply h.quiet
      rw [seen_snoc, Seen.next_timer, ← hboth, hw]
      rfl
  | @init hw hi r =>
      have hzero := ht.ready_zero hi
      have hlog : asked (log ++ [.infer (List.replicate net.obsSize 0)
          n.timestep, .process r.actions])
          = [(List.replicate net.obsSize 0, s)] := by
        have htime := ht.timestep
        rw [hzero, ticks_of_le_one (Nat.zero_le _)] at htime
        rw [asked_append, h.none hzero, htime]
        simp [asked]
      have hcmds := h.commands
      rw [hzero, ticks_of_le_one (Nat.zero_le _)] at hcmds
      refine ⟨?_, ?_, ?_, ?_⟩
      · intro hr
        rw [hnext hw] at hr
        omega
      · intro _
        unfold ticked
        rw [hlog]
        rfl
      · unfold ticked
        rw [hlog, hnext hw, hzero, ticks_of_le_one (le_refl _)]
        rfl
      · rw [hnext hw, hzero, ticks_of_le_one (le_refl _),
          published_append, List.length_append, hcmds]
        rfl
  | done hw hi hd =>
      have hdone := ht.flagMotionDone.symm.trans hd
      have hpos := ht.ready_pos hi
      rw [List.append_nil]
      refine ⟨?_, ?_, ?_, ?_⟩
      · intro hr
        rw [hnext hw] at hr
        omega
      · intro _
        exact h.dryRun hpos
      · rw [hnext hw, ticks_of_done hdone]
        exact h.timesteps
      · rw [hnext hw, ticks_of_done hdone]
        exact h.commands
  | @tick hw hi hd obs r dc₂ _ target =>
      have hpos := ht.ready_pos hi
      have hrun := ht.flagMotionDone.symm.trans hd
      have hcall : asked (log ++ [.infer obs n.timestep,
          .process r.actions, .publish (dc₂.actionToJointCmd target)])
          = asked log ++ [(obs, n.timestep)] := by
        rw [asked_append]
        rfl
      have hticked : ticked (log ++ [.infer obs n.timestep,
          .process r.actions, .publish (dc₂.actionToJointCmd target)])
          = ticked log ++ [(obs, n.timestep)] := by
        unfold ticked
        rw [hcall, h.dryRun hpos]
        rfl
      have hk : ticks s m (seen evs).ready + 1
          = ticks s m ((seen evs).ready + 1) := by
        rw [ticks_succ_of_running hpos hrun, ticks_of_running hrun]
        omega
      refine ⟨?_, ?_, ?_, ?_⟩
      · intro hr
        rw [hnext hw] at hr
        omega
      · intro _
        rw [hticked, hcall, h.dryRun hpos]
        rfl
      · rw [hticked, hnext hw, ← hk, List.range_succ, List.map_append,
          List.map_append, h.timesteps, ht.timestep]
        rfl
      · rw [hnext hw, ← hk, published_append, List.length_append,
          h.commands]
        rfl

/-- One callback that returns keeps the calls consecutive. -/
theorem Asked.step (h : Asked net s m evs log) (ht : Track s m evs n)
    {e : Event D} (hs : (step net n e).out = .ok n') :
    Asked net s m (evs ++ [e]) (log ++ (step net n e).log) := by
  cases e with
  | jointState msg =>
      apply h.quiet
      rw [seen_snoc]
      rfl
  | imu msg =>
      apply h.quiet
      rw [seen_snoc]
      rfl
  | timer => exact h.timerStep ht (timerStep_of_ok hs)

/-- The calls of every run that returns. -/
theorem asked_run {cfg : BeyondMimicConfig F} {evs : List (Event D)}
    {n : RLControllerNode F D}
    (h : (run net (start cfg s m) evs).out = .ok n) :
    Asked net s m evs (run net (start cfg s m) evs).log := by
  refine Logged.run_past (fun evs log _ => Asked net s m evs log) ?_
    (fun hrun ha hs => ha.step (track_run hrun) hs) h
  refine ⟨fun _ => rfl, ?_, ?_, ?_⟩
  · intro hr
    cases hr
  · show [] = (List.range (ticks s m 0)).map _
    rw [ticks_of_le_one (Nat.zero_le _)]
    rfl
  · show 0 = ticks s m 0
    rw [ticks_of_le_one (Nat.zero_le _)]

-- ======================================================== after the end

omit [Scalar F D] [Eigen F] in
/-- A node that is past the end of the motion `n₀` finished. -/
structure Frozen (n₀ n : RLControllerNode F D) : Prop where
  initialized : n.initialized = true
  flagMotionDone : n.flagMotionDone = true
  timestep : n.timestep = n₀.timestep
  converter : n.converter = n₀.converter

/-- No callback acts past the end, and each stays there. -/
theorem Frozen.step {n₀ : RLControllerNode F D} (h : Frozen n₀ n)
    (e : Event D) :
    ∃ n', RLControllerNode.step net n e = ⟨[], .ok n'⟩
      ∧ Frozen n₀ n' := by
  cases e with
  | jointState msg =>
      exact ⟨_, rfl, h.initialized, h.flagMotionDone, h.timestep,
        h.converter⟩
  | imu msg =>
      exact ⟨_, rfl, h.initialized, h.flagMotionDone, h.timestep,
        h.converter⟩
  | timer =>
      refine ⟨n, ?_, h⟩
      show n.timerCallback net = ⟨[], .ok n⟩
      by_cases hw : (n.jointReceived && n.imuReceived) = true
      case pos =>
        exact timerCallback_done hw h.initialized h.flagMotionDone
      exact timerCallback_waiting (Bool.not_eq_true _ ▸ hw)

/-- Nor does any run. -/
theorem frozen_run (h : Frozen n n) (evs' : List (Event D)) :
    ∃ n', run net n evs' = ⟨[], .ok n'⟩ ∧ Frozen n n' :=
  Logged.run_quiet (Frozen n) (fun _ e hn => hn.step e) evs' h

-- ========================================================= the schedule

omit [Scalar F D] [Eigen F] in
/-- The two bounds are one: the number of ticks is an integer. -/
theorem horizon_cast (s m : Int) : (horizon s m : Int) = max 1 (m - s) := by
  unfold horizon
  omega

/-- The schedule of a run over `evs` that ended in `n`. -/
structure Schedule (net : Policy F) (cfg : BeyondMimicConfig F)
    (s m : Int) (evs : List (Event D)) (n : RLControllerNode F D) :
    Prop where
  /-- The calls are the dry run's and the control ticks'. -/
  calls : asked (run net (start cfg s m) evs).log
    = if n.initialized then
        (List.replicate net.obsSize 0, s)
          :: ticked (run net (start cfg s m) evs).log
      else []
  /-- The ticks ask for consecutive timesteps from the start. -/
  timesteps : (ticked (run net (start cfg s m) evs).log).map Prod.snd
    = (List.range (ticked (run net (start cfg s m) evs).log).length).map
        fun i : Nat => s + (i : Int)
  timestep : n.timestep
    = s + ((ticked (run net (start cfg s m) evs).log).length : Int)
  playSpeed : n.playSpeed = 1 ↔ n.flagMotionDone = false
  /-- With a last timestep, the ticks are bounded. -/
  bounded : 0 < m →
    ((ticked (run net (start cfg s m) evs).log).length : Int)
      ≤ max 1 (m - s)
  /-- The flag is set in the tick that reaches the bound. -/
  done : 0 < m → (n.flagMotionDone = true ↔
    ((ticked (run net (start cfg s m) evs).log).length : Int)
      = max 1 (m - s))
  /-- Once set, no event acts or changes what the node publishes from. -/
  frozen : n.flagMotionDone = true → ∀ evs' : List (Event D), ∃ n',
    run net n evs' = ⟨[], .ok n'⟩ ∧ n'.flagMotionDone = true
      ∧ n'.timestep = n.timestep
      ∧ n'.converter.command = n.converter.command
      ∧ n'.converter.lastAction = n.converter.lastAction
  /-- Without a last timestep it is never set. -/
  endless : m ≤ 0 → n.flagMotionDone = false

/-- Every run that returns follows the schedule, whatever the model and
the configuration. -/
theorem schedule {cfg : BeyondMimicConfig F}
    (h : (run net (start cfg s m) evs).out = .ok n) :
    Schedule net cfg s m evs n := by
  have ht := track_run h
  have ha := asked_run h
  have hcount : (ticked (run net (start cfg s m) evs).log).length
      = ticks s m (seen evs).ready := by
    have hlen := congrArg List.length ha.timesteps
    simpa using hlen
  have hflag := ht.flagMotionDone
  have hcast := horizon_cast s m
  refine ⟨?_, ?_, ?_, ?_, ?_, ?_, ?_, ?_⟩
  · cases hi : n.initialized with
    | true => exact ha.dryRun (ht.ready_pos hi)
    | false => exact ha.none (ht.ready_zero hi)
  · rw [hcount]
    exact ha.timesteps
  · rw [hcount]
    exact ht.timestep
  · rw [ht.playSpeed]
    cases n.flagMotionDone <;> simp
  · intro hm
    rw [hcount, ← hcast]
    unfold ticks
    rw [if_pos hm]
    omega
  · intro hm
    rw [hcount, ← hcast, hflag, motionDone_eq_true_iff]
    unfold ticks
    rw [if_pos hm]
    have hpos : 1 ≤ horizon s m := le_max_left ..
    omega
  · intro hd evs'
    have hdone := (motionDone_eq_true_iff.mp (hflag.symm.trans hd)).2
    have hi : n.initialized = true := by
      rw [ht.initialized, decide_eq_true_eq]
      omega
    have hfrozen : Frozen n n := ⟨hi, hd, rfl, rfl⟩
    obtain ⟨n', hrun, hf⟩ : ∃ n', run net n evs' = ⟨[], .ok n'⟩
        ∧ Frozen n n' := frozen_run hfrozen evs'
    exact ⟨n', hrun, hf.flagMotionDone, hf.timestep,
      congrArg DataConverter.command hf.converter,
      congrArg DataConverter.lastAction hf.converter⟩
  · intro hm
    rw [hflag, motionDone_eq_false_iff]
    omega

/-- A start one before the last timestep: the run ends after a tick. -/
theorem schedule_crossed :
    ∃ n, (run (Policy.ofFun 19 fun _ _ => fullResult)
        (start DataConverter.crossed 3 4) twoReady).out = .ok n
      ∧ Schedule (Policy.ofFun 19 fun _ _ => fullResult)
        DataConverter.crossed 3 4 twoReady n := by
  have hnet : (Policy.ofFun 19 fun _ _ => fullResult).WellSized
      DataConverter.crossed.numDof DataConverter.crossed.numBodies :=
    fun _ _ => ⟨_, rfl, fullResult_wellSized⟩
  obtain ⟨n, hn, -⟩ := run_ok crossed_runnable hnet 3 4 twoReady
  exact ⟨n, hn, schedule hn⟩

end RLControllerNode

end RlDeploy
