/-
The node's bookkeeping, read off the events alone.

`TimerStep` and `TimerStop` are the one case analysis of
`timerCallback`: every way the callback can return, with its log and its
successor state, and every way it can stop, with its log and the fault
(`timer_cases`). All later proofs on the timer go through them.

`seen` counts what an observer of the events knows: the last message of
each topic, and how many timer events came when both were there
(`ready`). `Track` ties the node's flags and counters to it, along every
run that returns: the first ready timer event initialises, each later
one is a control tick until the motion is done, and the motion is done
after `horizon` ticks. No result on the model or the configuration is
needed for that.
-/
import RlDeploy.Node.Basic
import RlDeploy.Converter.Proofs.Run

namespace RlDeploy

open Lib

variable {F D : Type} [Scalar F D] [Eigen F]

namespace RLControllerNode

-- ==================================================== the timer's cases

/-- Every way `timerCallback` returns from `n`: the log, and the node
after it. -/
inductive TimerStep (net : Policy F) (n : RLControllerNode F D) :
    List (Act F D) → RLControllerNode F D → Prop
  | waiting (hw : (n.jointReceived && n.imuReceived) = false) :
      TimerStep net n [] n
  | init (hw : (n.jointReceived && n.imuReceived) = true)
      (hi : n.initialized = false)
      {r : InferenceResult F} {dc₁ dc₂ : DataConverter F}
      {scaled : List F}
      (hr : net.infer (List.replicate net.obsSize 0) n.timestep = .ok r)
      (hm : initMotion n.converter r = .ok dc₁)
      (hp : dc₁.processAction r.actions = .ok (dc₂, scaled)) :
      TimerStep net n
        [.infer (List.replicate net.obsSize 0) n.timestep,
          .process r.actions]
        { n with converter := dc₂, initialized := true }
  | done (hw : (n.jointReceived && n.imuReceived) = true)
      (hi : n.initialized = true) (hd : n.flagMotionDone = true) :
      TimerStep net n [] n
  | tick (hw : (n.jointReceived && n.imuReceived) = true)
      (hi : n.initialized = true) (hd : n.flagMotionDone = false)
      {obs : List F} {r : InferenceResult F} {dc₂ : DataConverter F}
      {scaled target : List F}
      (ho : n.converter.buildObservation n.latestImu.angularVelocity.narrow
        n.latestImu.orientation.narrow n.latestJointState.name
        n.latestJointState.position n.latestJointState.velocity = .ok obs)
      (hr : net.infer obs n.timestep = .ok r)
      (hp : (updateMotion n.converter r).processAction r.actions
        = .ok (dc₂, scaled))
      (ht : dc₂.computePdTarget scaled = .ok target) :
      TimerStep net n
        [.infer obs n.timestep, .process r.actions,
          .publish (dc₂.actionToJointCmd target)]
        (advance { n with converter := dc₂ })

/-- Every way `timerCallback` stops from `n`: the log up to there, and
the fault. -/
inductive TimerStop (net : Policy F) (n : RLControllerNode F D) :
    List (Act F D) → Fault → Prop
  | initInfer (hw : (n.jointReceived && n.imuReceived) = true)
      (hi : n.initialized = false) {e : Fault}
      (hr : net.infer (List.replicate net.obsSize 0) n.timestep
        = .error e) :
      TimerStop net n
        [.infer (List.replicate net.obsSize 0) n.timestep] e
  | initMotion (hw : (n.jointReceived && n.imuReceived) = true)
      (hi : n.initialized = false) {r : InferenceResult F} {e : Fault}
      (hr : net.infer (List.replicate net.obsSize 0) n.timestep = .ok r)
      (hm : RLControllerNode.initMotion n.converter r = .error e) :
      TimerStop net n
        [.infer (List.replicate net.obsSize 0) n.timestep] e
  | initProcess (hw : (n.jointReceived && n.imuReceived) = true)
      (hi : n.initialized = false) {r : InferenceResult F}
      {dc₁ : DataConverter F} {e : Fault}
      (hr : net.infer (List.replicate net.obsSize 0) n.timestep = .ok r)
      (hm : RLControllerNode.initMotion n.converter r = .ok dc₁)
      (hp : dc₁.processAction r.actions = .error e) :
      TimerStop net n
        [.infer (List.replicate net.obsSize 0) n.timestep,
          .process r.actions] e
  | observe (hw : (n.jointReceived && n.imuReceived) = true)
      (hi : n.initialized = true) (hd : n.flagMotionDone = false)
      {e : Fault}
      (ho : n.converter.buildObservation n.latestImu.angularVelocity.narrow
        n.latestImu.orientation.narrow n.latestJointState.name
        n.latestJointState.position n.latestJointState.velocity
        = .error e) :
      TimerStop net n [] e
  | infer (hw : (n.jointReceived && n.imuReceived) = true)
      (hi : n.initialized = true) (hd : n.flagMotionDone = false)
      {obs : List F} {e : Fault}
      (ho : n.converter.buildObservation n.latestImu.angularVelocity.narrow
        n.latestImu.orientation.narrow n.latestJointState.name
        n.latestJointState.position n.latestJointState.velocity = .ok obs)
      (hr : net.infer obs n.timestep = .error e) :
      TimerStop net n [.infer obs n.timestep] e
  | process (hw : (n.jointReceived && n.imuReceived) = true)
      (hi : n.initialized = true) (hd : n.flagMotionDone = false)
      {obs : List F} {r : InferenceResult F} {e : Fault}
      (ho : n.converter.buildObservation n.latestImu.angularVelocity.narrow
        n.latestImu.orientation.narrow n.latestJointState.name
        n.latestJointState.position n.latestJointState.velocity = .ok obs)
      (hr : net.infer obs n.timestep = .ok r)
      (hp : (updateMotion n.converter r).processAction r.actions
        = .error e) :
      TimerStop net n [.infer obs n.timestep, .process r.actions] e
  | target (hw : (n.jointReceived && n.imuReceived) = true)
      (hi : n.initialized = true) (hd : n.flagMotionDone = false)
      {obs : List F} {r : InferenceResult F} {dc₂ : DataConverter F}
      {scaled : List F} {e : Fault}
      (ho : n.converter.buildObservation n.latestImu.angularVelocity.narrow
        n.latestImu.orientation.narrow n.latestJointState.name
        n.latestJointState.position n.latestJointState.velocity = .ok obs)
      (hr : net.infer obs n.timestep = .ok r)
      (hp : (updateMotion n.converter r).processAction r.actions
        = .ok (dc₂, scaled))
      (ht : dc₂.computePdTarget scaled = .error e) :
      TimerStop net n [.infer obs n.timestep, .process r.actions] e

variable {net : Policy F} {n n' : RLControllerNode F D}

section Advance

omit [Scalar F D] [Eigen F]

@[simp] theorem advance_converter (n : RLControllerNode F D) :
    (advance n).converter = n.converter := by
  unfold advance
  dsimp only
  split <;> rfl

@[simp] theorem advance_initialized (n : RLControllerNode F D) :
    (advance n).initialized = n.initialized := by
  unfold advance
  dsimp only
  split <;> rfl

@[simp] theorem advance_timestep (n : RLControllerNode F D) :
    (advance n).timestep = n.timestep + truncate n.playSpeed := by
  unfold advance
  dsimp only
  split <;> rfl

/-- A tick sets the done flag when it reaches the last timestep. -/
theorem advance_flagMotionDone (hd : n.flagMotionDone = false) :
    (advance n).flagMotionDone
      = decide (0 < n.maxTimestep
        ∧ n.maxTimestep ≤ n.timestep + truncate n.playSpeed) := by
  unfold advance
  dsimp only
  split
  next hend => exact (decide_eq_true hend).symm
  next hend => exact hd.trans (decide_eq_false hend).symm

/-- The play speed is one until the flag is set, and zero then. -/
theorem advance_playSpeed (hd : n.flagMotionDone = false)
    (hp : n.playSpeed = 1) :
    (advance n).playSpeed
      = if (advance n).flagMotionDone then 0 else 1 := by
  unfold advance
  dsimp only
  split
  next => rfl
  next => rw [hd, hp]; rfl

/-- The members that only the sensor callbacks and the start set. -/
structure SameInputs (n' n : RLControllerNode F D) : Prop where
  jointReceived : n'.jointReceived = n.jointReceived
  imuReceived : n'.imuReceived = n.imuReceived
  latestJointState : n'.latestJointState = n.latestJointState
  latestImu : n'.latestImu = n.latestImu
  maxTimestep : n'.maxTimestep = n.maxTimestep

theorem advance_sameInputs (n : RLControllerNode F D) :
    (advance n).SameInputs n := by
  unfold advance
  dsimp only
  split <;> exact ⟨rfl, rfl, rfl, rfl, rfl⟩

end Advance

/-- The callback before both topics were received. -/
theorem timerCallback_waiting
    (hw : (n.jointReceived && n.imuReceived) = false) :
    n.timerCallback net = ⟨[], .ok n⟩ := by
  have hg : (!n.jointReceived || !n.imuReceived) = true := by
    rw [← Bool.not_and, hw]
    rfl
  unfold timerCallback
  rw [if_pos hg]
  rfl

/-- The callback before the initialisation. -/
theorem timerCallback_init
    (hw : (n.jointReceived && n.imuReceived) = true)
    (hi : n.initialized = false) :
    n.timerCallback net = initializeMotion net n := by
  have hg : ¬ (!n.jointReceived || !n.imuReceived) = true := by
    rw [← Bool.not_and, hw]
    simp
  unfold timerCallback
  rw [if_neg hg, if_pos (by rw [hi]; rfl)]

/-- The callback once the motion is done. -/
theorem timerCallback_done
    (hw : (n.jointReceived && n.imuReceived) = true)
    (hi : n.initialized = true) (hd : n.flagMotionDone = true) :
    n.timerCallback net = ⟨[], .ok n⟩ := by
  have hg : ¬ (!n.jointReceived || !n.imuReceived) = true := by
    rw [← Bool.not_and, hw]
    simp
  unfold timerCallback
  rw [if_neg hg, if_neg (by rw [hi]; simp), if_pos hd]
  rfl

/-- The callback in between. -/
theorem timerCallback_tick
    (hw : (n.jointReceived && n.imuReceived) = true)
    (hi : n.initialized = true) (hd : n.flagMotionDone = false) :
    n.timerCallback net = controlTick net n := by
  have hg : ¬ (!n.jointReceived || !n.imuReceived) = true := by
    rw [← Bool.not_and, hw]
    simp
  unfold timerCallback
  rw [if_neg hg, if_neg (by rw [hi]; simp), if_neg (by rw [hd]; simp)]

theorem TimerStep.timerCallback {l : List (Act F D)}
    (h : TimerStep net n l n') : n.timerCallback net = ⟨l, .ok n'⟩ := by
  cases h with
  | waiting hw => exact timerCallback_waiting hw
  | init hw hi hr hm hp =>
      rw [timerCallback_init hw hi]
      unfold initializeMotion
      simp [hr, hm, hp]
  | done hw hi hd => exact timerCallback_done hw hi hd
  | tick hw hi hd ho hr hp ht =>
      rw [timerCallback_tick hw hi hd]
      unfold controlTick
      simp [ho, hr, hp, ht]

theorem TimerStop.timerCallback {l : List (Act F D)} {e : Fault}
    (h : TimerStop net n l e) :
    n.timerCallback net = ⟨l, .error e⟩ := by
  cases h with
  | initInfer hw hi hr =>
      rw [timerCallback_init hw hi]
      unfold initializeMotion
      simp [hr]
  | initMotion hw hi hr hm =>
      rw [timerCallback_init hw hi]
      unfold initializeMotion
      simp [hr, hm]
  | initProcess hw hi hr hm hp =>
      rw [timerCallback_init hw hi]
      unfold initializeMotion
      simp [hr, hm, hp]
  | observe hw hi hd ho =>
      rw [timerCallback_tick hw hi hd]
      unfold controlTick
      simp [ho]
  | infer hw hi hd ho hr =>
      rw [timerCallback_tick hw hi hd]
      unfold controlTick
      simp [ho, hr]
  | process hw hi hd ho hr hp =>
      rw [timerCallback_tick hw hi hd]
      unfold controlTick
      simp [ho, hr, hp]
  | target hw hi hd ho hr hp ht =>
      rw [timerCallback_tick hw hi hd]
      unfold controlTick
      simp [ho, hr, hp, ht]

/-- The callback returns or stops in one of these ways, and in no
other. -/
theorem timer_cases (net : Policy F) (n : RLControllerNode F D) :
    (∃ l n', TimerStep net n l n') ∨ (∃ l e, TimerStop net n l e) := by
  cases hw : n.jointReceived && n.imuReceived with
  | false => exact Or.inl ⟨_, _, .waiting hw⟩
  | true =>
    cases hi : n.initialized with
    | false =>
      cases hr : net.infer (List.replicate net.obsSize 0) n.timestep with
      | error e => exact Or.inr ⟨_, _, .initInfer hw hi hr⟩
      | ok r =>
        cases hm : initMotion n.converter r with
        | error e => exact Or.inr ⟨_, _, .initMotion hw hi hr hm⟩
        | ok dc₁ =>
          cases hp : dc₁.processAction r.actions with
          | error e => exact Or.inr ⟨_, _, .initProcess hw hi hr hm hp⟩
          | ok p => exact Or.inl ⟨_, _, .init hw hi hr hm hp⟩
    | true =>
      cases hd : n.flagMotionDone with
      | true => exact Or.inl ⟨_, _, .done hw hi hd⟩
      | false =>
        cases ho : n.converter.buildObservation
            n.latestImu.angularVelocity.narrow
            n.latestImu.orientation.narrow n.latestJointState.name
            n.latestJointState.position n.latestJointState.velocity with
        | error e => exact Or.inr ⟨_, _, .observe hw hi hd ho⟩
        | ok obs =>
          cases hr : net.infer obs n.timestep with
          | error e => exact Or.inr ⟨_, _, .infer hw hi hd ho hr⟩
          | ok r =>
            cases hp : (updateMotion n.converter r).processAction
                r.actions with
            | error e => exact Or.inr ⟨_, _, .process hw hi hd ho hr hp⟩
            | ok p =>
              cases ht : p.1.computePdTarget p.2 with
              | error e =>
                  exact Or.inr ⟨_, _, .target hw hi hd ho hr hp ht⟩
              | ok target =>
                  exact Or.inl ⟨_, _, .tick hw hi hd ho hr hp ht⟩

theorem timerStep_of_ok (h : (n.timerCallback net).out = .ok n') :
    TimerStep net n (n.timerCallback net).log n' := by
  rcases timer_cases net n with ⟨l, n₁, ht⟩ | ⟨l, e, ht⟩
  · rw [ht.timerCallback] at h ⊢
    cases h
    exact ht
  · rw [ht.timerCallback] at h
    cases h

theorem timerStop_of_error {e : Fault}
    (h : (n.timerCallback net).out = .error e) :
    TimerStop net n (n.timerCallback net).log e := by
  rcases timer_cases net n with ⟨l, n₁, ht⟩ | ⟨l, e₁, ht⟩
  · rw [ht.timerCallback] at h
    cases h
  · rw [ht.timerCallback] at h ⊢
    cases h
    exact ht

/-- The timer callback leaves what the sensors brought. -/
theorem TimerStep.sameInputs {l : List (Act F D)}
    (h : TimerStep net n l n') : n'.SameInputs n := by
  cases h with
  | waiting => exact ⟨rfl, rfl, rfl, rfl, rfl⟩
  | init => exact ⟨rfl, rfl, rfl, rfl, rfl⟩
  | done => exact ⟨rfl, rfl, rfl, rfl, rfl⟩
  | @tick _ _ _ _ _ dc₂ =>
      have ha := advance_sameInputs { n with converter := dc₂ }
      exact ⟨ha.jointReceived, ha.imuReceived, ha.latestJointState,
        ha.latestImu, ha.maxTimestep⟩

-- ======================================================= what is seen

/-- What the events alone determine: the last message of each topic, and
the number of timer events that came when both were there. -/
structure Seen (D : Type) where
  jointState : Option (JointState D)
  imu : Option (Imu D)
  ready : Nat

/-- Both topics have been received. -/
def Seen.both (s : Seen D) : Bool := s.jointState.isSome && s.imu.isSome

def Seen.next (s : Seen D) : Event D → Seen D
  | .jointState msg => { s with jointState := some msg }
  | .imu msg => { s with imu := some msg }
  | .timer => if s.both then { s with ready := s.ready + 1 } else s

omit [Eigen F] [Scalar F D] in
theorem Seen.next_timer (x : Seen D) :
    x.next .timer
      = if x.both then { x with ready := x.ready + 1 } else x := rfl

def seen (evs : List (Event D)) : Seen D :=
  evs.foldl Seen.next ⟨none, none, 0⟩

omit [Eigen F] in
theorem seen_snoc (evs : List (Event D)) (e : Event D) :
    seen (evs ++ [e]) = (seen evs).next e := by
  unfold seen
  rw [List.foldl_append]
  rfl

section Seen

omit [Scalar F D] [Eigen F]

/-- What was seen stays seen. -/
theorem seen_mono (pre post : List (Event D)) :
    (seen pre).ready ≤ (seen (pre ++ post)).ready
      ∧ ((seen pre).both = true → (seen (pre ++ post)).both = true) := by
  induction post using List.reverseRecOn with
  | nil =>
      rw [List.append_nil]
      exact ⟨le_refl _, id⟩
  | append_singleton post e ih =>
      obtain ⟨hle, hboth⟩ := ih
      rw [← List.append_assoc, seen_snoc]
      cases e with
      | jointState msg =>
          refine ⟨hle, fun h => ?_⟩
          have := hboth h
          simp only [Seen.both, Seen.next, Bool.and_eq_true] at this ⊢
          exact ⟨rfl, this.2⟩
      | imu msg =>
          refine ⟨hle, fun h => ?_⟩
          have := hboth h
          simp only [Seen.both, Seen.next, Bool.and_eq_true] at this ⊢
          exact ⟨this.1, rfl⟩
      | timer =>
          rw [Seen.next_timer]
          split
          · exact ⟨Nat.le_succ_of_le hle, hboth⟩
          · exact ⟨hle, hboth⟩

/-- A ready timer event counts. -/
theorem seen_timer {pre : List (Event D)} (h : (seen pre).both = true) :
    (seen (pre ++ [.timer])).ready = (seen pre).ready + 1 := by
  rw [seen_snoc]
  unfold Seen.next
  rw [if_pos h]

end Seen

/-- The number of control ticks before the motion is done, when
`max_timestep` is positive: at least one, even when it starts past the
end. -/
def horizon (startTimestep maxTimestep : Int) : Nat :=
  max 1 (maxTimestep - startTimestep).toNat

/-- The motion is done once `horizon` ticks came after the
initialisation. -/
def motionDone (startTimestep maxTimestep : Int) (ready : Nat) : Bool :=
  decide (0 < maxTimestep)
    && decide (horizon startTimestep maxTimestep + 1 ≤ ready)

/-- The number of control ticks among `ready` ready timer events. -/
def ticks (startTimestep maxTimestep : Int) (ready : Nat) : Nat :=
  if 0 < maxTimestep then
    min (ready - 1) (horizon startTimestep maxTimestep)
  else ready - 1

section Counting

omit [Scalar F D] [Eigen F]

variable {s m : Int} {k : Nat}

theorem motionDone_eq_true_iff :
    motionDone s m k = true ↔ 0 < m ∧ horizon s m + 1 ≤ k := by
  unfold motionDone
  rw [Bool.and_eq_true, decide_eq_true_eq, decide_eq_true_eq]

theorem motionDone_eq_false_iff :
    motionDone s m k = false ↔ ¬ (0 < m ∧ horizon s m + 1 ≤ k) := by
  rw [← motionDone_eq_true_iff, Bool.not_eq_true]

theorem motionDone_of_le_one (hk : k ≤ 1) : motionDone s m k = false := by
  rw [motionDone_eq_false_iff]
  unfold horizon
  omega

/-- A motion that is done stays done. -/
theorem motionDone_mono (h : motionDone s m k = true) :
    motionDone s m (k + 1) = true := by
  rw [motionDone_eq_true_iff] at h ⊢
  omega

/-- While the motion runs, it is over after the tick that reaches the
last timestep. -/
theorem motionDone_succ (hk : 0 < k) :
    motionDone s m (k + 1) = decide (0 < m ∧ m ≤ s + (k : Int)) := by
  apply Bool.eq_iff_iff.mpr
  rw [motionDone_eq_true_iff, decide_eq_true_eq]
  unfold horizon
  omega

theorem ticks_of_le_one (hk : k ≤ 1) : ticks s m k = 0 := by
  unfold ticks
  split <;> omega

/-- No ready timer event after the end is a tick. -/
theorem ticks_of_done (h : motionDone s m k = true) :
    ticks s m (k + 1) = ticks s m k := by
  obtain ⟨hm, hle⟩ := motionDone_eq_true_iff.mp h
  unfold ticks
  rw [if_pos hm, if_pos hm]
  omega

/-- Every ready timer event before the end is a tick, but the first. -/
theorem ticks_of_running (h : motionDone s m k = false) :
    ticks s m k = k - 1 := by
  rw [motionDone_eq_false_iff] at h
  unfold ticks
  split
  · omega
  · rfl

theorem ticks_succ_of_running (hk : 0 < k)
    (h : motionDone s m k = false) : ticks s m (k + 1) = k := by
  rw [motionDone_eq_false_iff] at h
  unfold ticks
  split <;> omega

end Counting

/-- The node's bookkeeping agrees with what the events show. -/
structure Track (s m : Int) (evs : List (Event D))
    (n : RLControllerNode F D) : Prop where
  jointReceived : n.jointReceived = (seen evs).jointState.isSome
  imuReceived : n.imuReceived = (seen evs).imu.isSome
  latestJointState : ∀ msg, (seen evs).jointState = some msg →
    n.latestJointState = msg
  latestImu : ∀ msg, (seen evs).imu = some msg → n.latestImu = msg
  initialized : n.initialized = decide (0 < (seen evs).ready)
  maxTimestep : n.maxTimestep = m
  timestep : n.timestep = s + ticks s m (seen evs).ready
  flagMotionDone : n.flagMotionDone = motionDone s m (seen evs).ready
  playSpeed : n.playSpeed = if n.flagMotionDone then 0 else 1

variable {s m : Int} {evs : List (Event D)}

omit [Eigen F] in
theorem track_start (cfg : BeyondMimicConfig F) :
    Track s m ([] : List (Event D)) (start cfg s m) := by
  refine ⟨rfl, rfl, ?_, ?_, rfl, rfl, ?_, ?_, ?_⟩
  · intro msg h
    cases h
  · intro msg h
    cases h
  · show s = s + ((ticks s m 0 : Nat) : Int)
    unfold ticks
    split <;> simp
  · show false = motionDone s m 0
    unfold motionDone
    simp
  · show (1 : ℚ) = if false = true then 0 else 1
    rw [if_neg (by simp)]

omit [Scalar F D] [Eigen F] in
theorem Track.both (h : Track s m evs n) :
    (n.jointReceived && n.imuReceived) = (seen evs).both := by
  rw [h.jointReceived, h.imuReceived]
  rfl

omit [Scalar F D] [Eigen F] in
/-- An initialised node has had a ready timer event. -/
theorem Track.ready_pos (h : Track s m evs n)
    (hi : n.initialized = true) : 0 < (seen evs).ready := by
  have hdec := h.initialized
  rw [hi] at hdec
  exact of_decide_eq_true hdec.symm

omit [Scalar F D] [Eigen F] in
theorem Track.ready_zero (h : Track s m evs n)
    (hi : n.initialized = false) : (seen evs).ready = 0 := by
  have hdec := h.initialized
  rw [hi] at hdec
  exact Nat.eq_zero_of_not_pos (of_decide_eq_false hdec.symm)

omit [Scalar F D] [Eigen F] in
/-- The bookkeeping depends on what the events show, not on how. -/
theorem Track.of_seen (h : Track s m evs n) {evs' : List (Event D)}
    (he : seen evs' = seen evs) : Track s m evs' n := by
  refine ⟨?_, ?_, ?_, ?_, ?_, h.maxTimestep, ?_, ?_, h.playSpeed⟩
  all_goals rw [he]
  · exact h.jointReceived
  · exact h.imuReceived
  · exact h.latestJointState
  · exact h.latestImu
  · exact h.initialized
  · exact h.timestep
  · exact h.flagMotionDone

omit [Scalar F D] [Eigen F] in
/-- The bookkeeping after a ready timer event, from the counters. -/
theorem Track.timer (h : Track s m evs n)
    (hw : (seen evs).both = true) (hin : n'.SameInputs n)
    (hi : n'.initialized = true)
    (ht : n'.timestep = s + ticks s m ((seen evs).ready + 1))
    (hf : n'.flagMotionDone = motionDone s m ((seen evs).ready + 1))
    (hp : n'.playSpeed = if n'.flagMotionDone then 0 else 1) :
    Track s m (evs ++ [.timer]) n' := by
  have hnext : seen (evs ++ [.timer])
      = { seen evs with ready := (seen evs).ready + 1 } := by
    rw [seen_snoc, Seen.next_timer, if_pos hw]
  refine ⟨?_, ?_, ?_, ?_, ?_, ?_, ?_, ?_, hp⟩
  · rw [hnext, hin.jointReceived]
    exact h.jointReceived
  · rw [hnext, hin.imuReceived]
    exact h.imuReceived
  · rw [hnext, hin.latestJointState]
    exact h.latestJointState
  · rw [hnext, hin.latestImu]
    exact h.latestImu
  · rw [hnext, hi]
    simp
  · rw [hin.maxTimestep, h.maxTimestep]
  · rw [hnext, ht]
  · rw [hnext, hf]

/-- A timer callback that returns keeps the bookkeeping. -/
theorem Track.timerStep (h : Track s m evs n) {l : List (Act F D)}
    (hts : TimerStep net n l n') : Track s m (evs ++ [.timer]) n' := by
  have hboth := h.both
  have hin := hts.sameInputs
  cases hts with
  | waiting hw =>
      apply h.of_seen
      rw [seen_snoc, Seen.next_timer, ← hboth, hw]
      rfl
  | init hw hi =>
      have hzero := h.ready_zero hi
      apply h.timer (hboth.symm.trans hw) hin rfl
      · rw [hzero, ticks_of_le_one (le_refl _)]
        have := h.timestep
        rwa [hzero, ticks_of_le_one (Nat.zero_le _)] at this
      · rw [hzero, motionDone_of_le_one (le_refl _)]
        have := h.flagMotionDone
        rwa [hzero, motionDone_of_le_one (Nat.zero_le _)] at this
      · exact h.playSpeed
  | done hw hi hd =>
      have hdone := h.flagMotionDone.symm.trans hd
      apply h.timer (hboth.symm.trans hw) hin hi
      · rw [ticks_of_done hdone]
        exact h.timestep
      · rw [motionDone_mono hdone]
        exact hd
      · exact h.playSpeed
  | @tick hw hi hd _ _ dc₂ =>
      have hpos := h.ready_pos hi
      have hrun := h.flagMotionDone.symm.trans hd
      have hplay : n.playSpeed = 1 := by
        rw [h.playSpeed, hd]
        rfl
      have htick : n.timestep + truncate n.playSpeed
          = s + ((seen evs).ready : Int) := by
        have hone : truncate 1 = 1 := rfl
        rw [hplay, hone, h.timestep, ticks_of_running hrun]
        omega
      apply h.timer (hboth.symm.trans hw) hin
      · rw [advance_initialized]
        exact hi
      · rw [advance_timestep, ticks_succ_of_running hpos hrun]
        exact htick
      · have hflag := advance_flagMotionDone
          (n := { n with converter := dc₂ }) hd
        rw [motionDone_succ hpos, ← htick, ← h.maxTimestep]
        exact hflag
      · exact advance_playSpeed hd hplay

/-- One callback that returns keeps the bookkeeping. -/
theorem Track.step (h : Track s m evs n) {e : Event D}
    (hs : (RLControllerNode.step net n e).out = .ok n') :
    Track s m (evs ++ [e]) n' := by
  cases e with
  | jointState msg =>
      cases hs
      have hseen := seen_snoc evs (.jointState msg)
      refine ⟨?_, ?_, ?_, ?_, ?_, h.maxTimestep, ?_, ?_, h.playSpeed⟩
      all_goals rw [hseen]
      · rfl
      · exact h.imuReceived
      · intro msg' heq
        exact Option.some.inj heq
      · exact h.latestImu
      · exact h.initialized
      · exact h.timestep
      · exact h.flagMotionDone
  | imu msg =>
      cases hs
      have hseen := seen_snoc evs (.imu msg)
      refine ⟨?_, ?_, ?_, ?_, ?_, h.maxTimestep, ?_, ?_, h.playSpeed⟩
      all_goals rw [hseen]
      · exact h.jointReceived
      · rfl
      · exact h.latestJointState
      · intro msg' heq
        exact Option.some.inj heq
      · exact h.initialized
      · exact h.timestep
      · exact h.flagMotionDone
  | timer => exact h.timerStep (timerStep_of_ok hs)

/-- The bookkeeping holds after every run that returns. -/
theorem track_run {cfg : BeyondMimicConfig F} {evs : List (Event D)}
    {n : RLControllerNode F D}
    (h : (run net (start cfg s m) evs).out = .ok n) : Track s m evs n :=
  Logged.run_past (fun evs _ n => Track s m evs n) (track_start cfg)
    (fun _ ht hs => ht.step hs) h

end RLControllerNode

end RlDeploy
