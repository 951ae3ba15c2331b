/-
Runs of a node whose model answers in full size.

# Progress

A result is well sized when it has one action a joint and its motion is
absent or of full size; a model is, when all its answers are. On a
runnable configuration such a model never makes a callback fail: the
converter's run invariant (`Sound`) carries over from its member
functions to the three callbacks (`timer_progress`, `step_ok`,
`run_ok`).

# What no model can change

The setup of the converter, whatever the model answers: the timer
callback only sets the motion command, the alignment and the last action
(`step_setup`), so after every run the setup is the configured one
(`run_setup`).
-/
import RlDeploy.Node.Sequential
import RlDeploy.Node.Proofs.Track

namespace RlDeploy

open Lib

variable {F D : Type} [Scalar F D] [Eigen F]

omit [Scalar F D] [Eigen F] in
/-- One action a joint, and a motion that is absent or of full size. -/
def InferenceResult.WellSized (n b : Nat) (r : InferenceResult F) :
    Prop :=
  r.actions.length = n ∧ r.motion.Sized n b

omit [Scalar F D] [Eigen F] in
/-- A model that always answers, in full size. -/
def Policy.WellSized (n b : Nat) (net : Policy F) : Prop :=
  ∀ obs t, ∃ r, net.infer obs t = .ok r ∧ r.WellSized n b

namespace RLControllerNode

-- ==================================== the two updates of the converter

section Updates

variable {base dc : DataConverter F} {r : InferenceResult F}

omit [Scalar F D] [Eigen F] in
/-- The new motion command is the result's motion, unless it is empty. -/
theorem updateMotion_eq (dc : DataConverter F) (r : InferenceResult F) :
    updateMotion dc r = dc.setMotionCommand
      (if r.motion.empty then dc.command else r.motion) := by
  unfold updateMotion
  cases he : r.motion.empty with
  | true =>
      have : r.jointPos.isEmpty = true := he
      rw [this]
      rfl
  | false =>
      have : r.jointPos.isEmpty = false := he
      rw [this]
      rfl

omit [Eigen F] in
/-- A tick's motion keeps the run invariant. -/
theorem sound_updateMotion (h : DataConverter.Sound base dc)
    (hr : r.motion.Sized base.numDof base.cfg.numBodies) :
    DataConverter.Sound base (updateMotion dc r) := by
  rw [updateMotion_eq]
  split
  · exact h.withCommand h.command
  · exact h.withCommand hr

/-- On a full-size motion the dry run's update always returns: it is a
tick's update and the anchor's alignment. -/
theorem initMotion_eq (hb : base.Ready) (h : DataConverter.Sound base dc)
    (hr : r.motion.Sized base.numDof base.cfg.numBodies) :
    initMotion dc r = .ok { updateMotion dc r with
      initAlign := anchorAlignment dc.cfg dc.initAlign r.motion } := by
  unfold initMotion updateMotion anchorAlignment
  cases he : r.motion.empty with
  | true =>
      have : r.jointPos.isEmpty = true := he
      simp [this]
  | false =>
      have hpos : r.jointPos.isEmpty = false := he
      by_cases hbodies : dc.cfg.numBodies = 0
      case pos =>
        simp [hpos, hbodies, DataConverter.setMotionCommand]
      obtain ⟨k, hk, hlt⟩ := hb.anchor
      rw [← h.setup.cfg] at hk hlt hr
      have hlt' := hlt (Nat.pos_of_ne_zero hbodies)
      rcases hr with hr | ⟨-, -, hp, hq⟩
      · rw [hr] at he
        cases he
      obtain ⟨pos, hposn⟩ := MotionCommand.bodyPos_isOk_iff.mpr
        (show 3 * k + 2 < r.motion.bodyPosW.length by omega)
      obtain ⟨quat, hquat⟩ := MotionCommand.bodyQuat_isOk_iff.mpr
        (show 4 * k + 3 < r.motion.bodyQuatW.length by omega)
      have hne : r.motion.bodyPosW.isEmpty = false := by
        rw [List.isEmpty_eq_false_iff, ← List.length_pos_iff]
        omega
      have hset : (dc.setMotionCommand r.motion).cfg = dc.cfg := rfl
      simp [hpos, hset, hbodies, hk, hposn, hquat, hne,
        Nat.pos_of_ne_zero hbodies]

/-- The dry run's motion keeps the run invariant. -/
theorem sound_initMotion (hb : base.Ready)
    (h : DataConverter.Sound base dc)
    (hr : r.motion.Sized base.numDof base.cfg.numBodies) :
    ∃ dc₁, initMotion dc r = .ok dc₁
      ∧ DataConverter.Sound base dc₁ :=
  ⟨_, initMotion_eq hb h hr, (sound_updateMotion h hr).withAlign _⟩

end Updates

-- ============================================================ progress

variable {base : DataConverter F} {net : Policy F}
  {n n' : RLControllerNode F D}

/-- Under the run invariant the timer callback returns and keeps it. -/
theorem timer_progress (hb : base.Ready)
    (hnet : net.WellSized base.numDof base.cfg.numBodies)
    (h : DataConverter.Sound base n.converter) :
    ∃ l n', TimerStep net n l n'
      ∧ DataConverter.Sound base n'.converter := by
  cases hw : n.jointReceived && n.imuReceived with
  | false => exact ⟨_, n, .waiting hw, h⟩
  | true =>
    cases hi : n.initialized with
    | false =>
        obtain ⟨r, hr, hact, hmot⟩ :=
          hnet (List.replicate net.obsSize 0) n.timestep
        obtain ⟨dc₁, hm, h₁⟩ := sound_initMotion hb h hmot
        obtain ⟨hp, h₂, -⟩ := h₁.processAction hb.scales hact
        exact ⟨_, _, .init hw hi hr hm hp, h₂⟩
    | true =>
      cases hd : n.flagMotionDone with
      | true => exact ⟨_, n, .done hw hi hd, h⟩
      | false =>
          obtain ⟨_, -, ho⟩ := DataConverter.buildObservation_eq
            (h.observable hb) n.latestImu.angularVelocity.narrow
            n.latestImu.orientation.narrow n.latestJointState.name
            n.latestJointState.position n.latestJointState.velocity
          obtain ⟨r, hr, hact, hmot⟩ := hnet _ n.timestep
          obtain ⟨hp, h₂, hlen⟩ :=
            (sound_updateMotion h hmot).processAction hb.scales hact
          have ht := h₂.computePdTarget hb.default hlen
          refine ⟨_, _, .tick hw hi hd ho hr hp ht, ?_⟩
          rw [advance_converter]
          exact h₂

/-- No callback fails. -/
theorem step_ok (hb : base.Ready)
    (hnet : net.WellSized base.numDof base.cfg.numBodies)
    (h : DataConverter.Sound base n.converter) (e : Event D) :
    ∃ n', (step net n e).out = .ok n'
      ∧ DataConverter.Sound base n'.converter := by
  cases e with
  | jointState msg => exact ⟨_, rfl, h⟩
  | imu msg => exact ⟨_, rfl, h⟩
  | timer =>
      obtain ⟨l, n', ht, h'⟩ := timer_progress hb hnet h
      refine ⟨n', ?_, h'⟩
      show (n.timerCallback net).out = .ok n'
      rw [ht.timerCallback]

/-- No run fails, from a runnable configuration with a well-sized
model. -/
theorem run_ok {cfg : BeyondMimicConfig F} (hcfg : cfg.Runnable)
    (hnet : net.WellSized cfg.numDof cfg.numBodies) (s m : Int)
    (evs : List (Event D)) :
    ∃ n, (run net (start cfg s m) evs).out = .ok n
      ∧ DataConverter.Sound (DataConverter.init.configure cfg)
          n.converter := by
  have hb := DataConverter.configure_ready DataConverter.init hcfg
  rw [← DataConverter.configure_numDof DataConverter.init cfg,
    ← DataConverter.configure_numBodies DataConverter.init cfg] at hnet
  exact Logged.run_ok
    (fun n : RLControllerNode F D =>
      DataConverter.Sound (DataConverter.init.configure cfg) n.converter)
    (fun _ => True)
    (fun _ e h _ => step_ok hb hnet h e)
    (DataConverter.configure_sound cfg) (fun _ _ => trivial)

-- ======================================= the setup, under every model

omit [Eigen F] in
/-- `processAction` changes nothing but the last action. -/
theorem setup_processAction {dc dc' : DataConverter F}
    {raw scaled : List F} (h : dc.processAction raw = .ok (dc', scaled)) :
    dc'.SameSetup dc := by
  obtain ⟨rfl, -, -⟩ := DataConverter.processAction_ok h
  exact ⟨rfl, rfl, rfl, rfl⟩

omit [Scalar F D] [Eigen F] in
theorem setup_updateMotion (dc : DataConverter F)
    (r : InferenceResult F) : (updateMotion dc r).SameSetup dc := by
  rw [updateMotion_eq]
  exact ⟨rfl, rfl, rfl, rfl⟩

/-- The dry run's update is a tick's update and some alignment. -/
theorem initMotion_ok {dc dc' : DataConverter F}
    {r : InferenceResult F} (h : initMotion dc r = .ok dc') :
    ∃ a, dc' = { updateMotion dc r with initAlign := a } := by
  unfold initMotion at h
  unfold updateMotion
  dsimp only at h
  split at h
  next hne =>
    rw [if_pos hne]
    split at h
    · simp only [bind_eq_ok_iff] at h
      obtain ⟨_, -, _, -, h⟩ := h
      cases h
      exact ⟨_, rfl⟩
    · cases h
      exact ⟨_, rfl⟩
  next hne =>
    rw [if_neg hne]
    cases h
    exact ⟨_, rfl⟩

theorem setup_initMotion {dc dc' : DataConverter F}
    {r : InferenceResult F} (h : initMotion dc r = .ok dc') :
    dc'.SameSetup dc := by
  obtain ⟨a, rfl⟩ := initMotion_ok h
  have hup := setup_updateMotion dc r
  exact hup.members ..

/-- No callback changes the setup. -/
theorem step_setup {e : Event D} (h : (step net n e).out = .ok n') :
    n'.converter.SameSetup n.converter := by
  cases e with
  | jointState msg =>
      cases h
      exact .refl _
  | imu msg =>
      cases h
      exact .refl _
  | timer =>
      have ht := timerStep_of_ok h
      generalize (n.timerCallback net).log = l at ht
      cases ht with
      | waiting => exact .refl _
      | init _ _ _ hm hp =>
          exact (setup_processAction hp).trans (setup_initMotion hm)
      | done => exact .refl _
      | tick _ _ _ _ _ hp _ =>
          rw [advance_converter]
          exact (setup_processAction hp).trans (setup_updateMotion _ _)

/-- No run changes the setup. -/
theorem run_setup {evs : List (Event D)}
    (h : (run net n evs).out = .ok n') :
    n'.converter.SameSetup n.converter :=
  Logged.run_inv (fun x => x.converter.SameSetup n.converter)
    (fun _ _ _ hx hs => (step_setup hs).trans hx) (.refl _) h

/-- A callback that publishes is a tick that returned. -/
theorem publish_tick (h : published (n.timerCallback net).log ≠ []) :
    ∃ n', (n.timerCallback net).out = .ok n' := by
  cases hout : (n.timerCallback net).out with
  | ok n' => exact ⟨n', rfl⟩
  | error e =>
      have ht := timerStop_of_error hout
      generalize (n.timerCallback net).log = l at ht h
      cases ht <;> exact absurd rfl h

-- ================================================= a concrete instance

/-- A full-size result for `crossed`. -/
def fullResult : InferenceResult ℚ where
  actions := [0, 0]
  jointPos := [1, 2]
  jointVel := [0, 0]
  bodyPosW := [0, 0, 1]
  bodyQuatW := [1, 0, 0, 0]

theorem fullResult_wellSized :
    fullResult.WellSized DataConverter.crossed.numDof
      DataConverter.crossed.numBodies :=
  ⟨rfl, Or.inr ⟨rfl, rfl, rfl, rfl⟩⟩

theorem crossed_runnable : DataConverter.crossed.Runnable :=
  DataConverter.crossed_sized.runnable (Or.inr (by
    simp [DataConverter.crossed]))

/-- Both topics, and then two timer events. -/
def twoReady : List (Event ℚ) :=
  [.jointState {}, .imu ⟨⟨1, 0, 0, 0⟩, ⟨0, 0, 0⟩⟩, .timer, .timer]

end RLControllerNode

end RlDeploy
