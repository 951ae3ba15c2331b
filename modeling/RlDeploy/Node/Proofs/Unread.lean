/-
What of the configuration no run reads.

A converter keeps its whole configuration, and the callbacks read less of
it. The gains `kp` and `kd` go into no command. The name map and the name
of the anchor have done their work in `configure`, the two timesteps in
`loadConfig`, and `use_motion_from_model` is asked nowhere. With other
values there, every callback does the same (`run_withUnread`).
-/
import RlDeploy.Node.Proofs.Image

namespace RlDeploy

open Lib

variable {F D : Type}

/-- The configuration with what no callback reads as in `u`. -/
def BeyondMimicConfig.withUnread (cfg u : BeyondMimicConfig F) :
    BeyondMimicConfig F :=
  { cfg with
    kp := u.kp
    kd := u.kd
    jointNameMap := u.jointNameMap
    anchorBodyName := u.anchorBodyName
    useMotionFromModel := u.useMotionFromModel
    maxTimestep := u.maxTimestep
    startTimestep := u.startTimestep }

variable {u : BeyondMimicConfig F}

namespace DataConverter

def withUnread (u : BeyondMimicConfig F) (dc : DataConverter F) :
    DataConverter F :=
  { dc with cfg := dc.cfg.withUnread u }

variable [Scalar F D]

theorem processAction_withUnread (dc : DataConverter F) (raw : List F) :
    (dc.withUnread u).processAction raw
      = (dc.processAction raw).map
        fun p => (p.1.withUnread u, p.2) := by
  have hsmooth : (dc.withUnread u).smooth raw = dc.smooth raw := rfl
  have hn : (dc.withUnread u).numDof = dc.numDof := rfl
  have hclip : (dc.withUnread u).cfg.clipActions = dc.cfg.clipActions := rfl
  have hscales : (dc.withUnread u).cfg.actionScales
      = dc.cfg.actionScales := rfl
  unfold processAction
  rw [hsmooth, hn, hclip, hscales]
  cases dc.smooth raw with
  | error e => rfl
  | ok smoothed =>
      simp only [ok_bind]
      cases tabulate dc.numDof (read₂ (Fault.index .smoothed)
          (Fault.index .actionScales)
          (fun a k => clamp a (-dc.cfg.clipActions) dc.cfg.clipActions * k)
          smoothed dc.cfg.actionScales) with
      | error e => rfl
      | ok scaled => rfl

end DataConverter

namespace RLControllerNode

def withUnread (u : BeyondMimicConfig F) (n : RLControllerNode F D) :
    RLControllerNode F D :=
  { n with converter := n.converter.withUnread u }

variable [Scalar F D] [Eigen F] {net : Policy F}

theorem initMotion_withUnread (dc : DataConverter F)
    (r : InferenceResult F) :
    initMotion (dc.withUnread u) r
      = (initMotion dc r).map fun dc₁ => dc₁.withUnread u := by
  have hbodies : ∀ c : MotionCommand F,
      ((dc.withUnread u).setMotionCommand c).cfg.numBodies
        = (dc.setMotionCommand c).cfg.numBodies := fun _ => rfl
  have hidx : ∀ c : MotionCommand F,
      ((dc.withUnread u).setMotionCommand c).cfg.anchorBodyIndex
        = (dc.setMotionCommand c).cfg.anchorBodyIndex := fun _ => rfl
  unfold initMotion
  simp only [hbodies, hidx]
  split
  · split
    · cases r.motion.bodyPos
          (dc.setMotionCommand r.motion).cfg.anchorBodyIndex with
      | error e => rfl
      | ok p =>
          cases r.motion.bodyQuat
              (dc.setMotionCommand r.motion).cfg.anchorBodyIndex with
          | error e => rfl
          | ok q => rfl
    · rfl
  · rfl

omit [Eigen F] in
theorem updateMotion_withUnread (dc : DataConverter F)
    (r : InferenceResult F) :
    updateMotion (dc.withUnread u) r = (updateMotion dc r).withUnread u := by
  unfold updateMotion
  split <;> rfl

omit [Eigen F] [Scalar F D] in
theorem advance_withUnread (n : RLControllerNode F D) :
    advance (n.withUnread u) = (advance n).withUnread u := by
  unfold advance withUnread
  dsimp only
  split <;> rfl

theorem initializeMotion_withUnread (n : RLControllerNode F D) :
    Logged.Image id (fun m m' => m' = m.withUnread u)
      (initializeMotion net n) (initializeMotion net (n.withUnread u)) := by
  unfold initializeMotion
  refine (Logged.Image.emit id
    (Act.infer (List.replicate net.obsSize 0) n.timestep)).bind
    fun _ _ _ => ?_
  refine (Logged.Image.same id (net.infer _ n.timestep)).bind ?_
  rintro r _ rfl
  show Logged.Image _ _ (Logged.lift (initMotion n.converter r) >>= _)
    (Logged.lift (initMotion (n.converter.withUnread u) r) >>= _)
  rw [initMotion_withUnread]
  refine (Logged.Image.mapped id _ _).bind ?_
  rintro dc₁ _ rfl
  refine (Logged.Image.emit id (Act.process r.actions)).bind
    fun _ _ _ => ?_
  show Logged.Image _ _ (Logged.lift (dc₁.processAction r.actions) >>= _)
    (Logged.lift ((dc₁.withUnread u).processAction r.actions) >>= _)
  rw [DataConverter.processAction_withUnread]
  refine (Logged.Image.mapped id _ _).bind ?_
  rintro p _ rfl
  exact Logged.Image.pure rfl

theorem controlTick_withUnread (n : RLControllerNode F D) :
    Logged.Image id (fun m m' => m' = m.withUnread u)
      (controlTick net n) (controlTick net (n.withUnread u)) := by
  unfold controlTick
  -- the observation is the same by definition
  refine (Logged.Image.same id (n.converter.buildObservation
    n.latestImu.angularVelocity.narrow n.latestImu.orientation.narrow
    n.latestJointState.name n.latestJointState.position
    n.latestJointState.velocity)).bind ?_
  rintro obs _ rfl
  refine (Logged.Image.emit id (Act.infer obs n.timestep)).bind
    fun _ _ _ => ?_
  refine (Logged.Image.same id (net.infer obs n.timestep)).bind ?_
  rintro r _ rfl
  refine (Logged.Image.emit id (Act.process r.actions)).bind
    fun _ _ _ => ?_
  show Logged.Image _ _
    (Logged.lift ((updateMotion n.converter r).processAction r.actions)
      >>= _)
    (Logged.lift ((updateMotion (n.converter.withUnread u) r).processAction
      r.actions) >>= _)
  rw [updateMotion_withUnread, DataConverter.processAction_withUnread]
  refine (Logged.Image.mapped id _ _).bind ?_
  rintro ⟨dc₂, scaled⟩ _ rfl
  refine (Logged.Image.same id (dc₂.computePdTarget scaled)).bind ?_
  rintro target _ rfl
  refine (Logged.Image.emit id
    (Act.publish (dc₂.actionToJointCmd target))).bind fun _ _ _ => ?_
  exact Logged.Image.pure
    (advance_withUnread (u := u) { n with converter := dc₂ })

/-- One callback. -/
theorem step_withUnread (n : RLControllerNode F D) (e : Event D) :
    Logged.Image id (fun m m' => m' = m.withUnread u) (step net n e)
      (step net (n.withUnread u) e) := by
  cases e with
  | jointState msg => exact Logged.Image.pure rfl
  | imu msg => exact Logged.Image.pure rfl
  | timer =>
      show Logged.Image _ _ (n.timerCallback net)
        ((n.withUnread u).timerCallback net)
      exact image_timer ⟨rfl, rfl, rfl, rfl⟩ rfl
        (initializeMotion_withUnread n) (controlTick_withUnread n)

/-- A run. -/
theorem run_withUnread (net : Policy F) (u : BeyondMimicConfig F)
    (n : RLControllerNode F D) (evs : List (Event D)) :
    Logged.Image id (fun m m' => m' = m.withUnread u) (run net n evs)
      (run net (n.withUnread u) evs) :=
  Logged.run_image (step net) (step net) id _ Eq
    (by
      rintro m _ e _ rfl rfl
      exact step_withUnread m e)
    rfl (List.forall₂_refl evs)

end RLControllerNode

end RlDeploy
