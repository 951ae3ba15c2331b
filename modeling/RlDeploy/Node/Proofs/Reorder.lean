/-
The node commands joints, not places in a list.

Retrain the model with its joints in another order, list the robot's
joints in another order: with the configuration changed accordingly the
node publishes the same commands, joint by joint, along every run. The
model sees the reordered observations and answers in its own order
(`Conjugate`); the log of the one node is the log of the other with every
vector reordered (`Act.reordered`).

This is the reason for the two adapters of the converter, stated for the
whole node.
-/
import RlDeploy.Node.Proofs.Image
import RlDeploy.Converter.Proofs.Reorder
import RlDeploy.Node.Proofs.Steady

namespace RlDeploy

open Lib

variable {F D : Type} [Scalar F D] [Eigen F] {n k : Nat}

omit [Scalar F D] [Eigen F] in
/-- The outputs of a model with its joints in the order `ρ`. -/
def InferenceResult.reordered (r : InferenceResult F)
    (ρ : Reordering n) : InferenceResult F :=
  { r with
    actions := ρ.apply r.actions
    jointPos := ρ.apply r.jointPos
    jointVel := ρ.apply r.jointVel }

omit [Eigen F] in
/-- An action of the node with its vectors in the new orders. -/
def Act.reordered (ρ : Reordering n) (π : Reordering k) (a : Nat) :
    Act F D → Act F D
  | .infer obs t => .infer (DataConverter.reorderObservation ρ a obs) t
  | .process actions => .process (ρ.apply actions)
  | .publish cmd => .publish (cmd.reordered π)

omit [Scalar F D] [Eigen F] in
/-- The model `f'` is the model `f` with its joints in the order `ρ`, on
observations with an anchor block of `a` values. -/
def Conjugate (ρ : Reordering n) (a : Nat)
    (f f' : List F → Int → InferenceResult F) : Prop :=
  ∀ obs t, obs.length = 5 * n + 3 + a →
    f' (DataConverter.reorderObservation ρ a obs) t
      = (f obs t).reordered ρ

namespace RLControllerNode

section Updates

variable {cfg : BeyondMimicConfig F} {ρ : Reordering cfg.numDof}
  {π : Reordering cfg.robotJointNames.length} {dc dc' : DataConverter F}
  {r : InferenceResult F}

omit [Scalar F D] [Eigen F] in
theorem sized_reordered {b : Nat} (hr : r.motion.Sized cfg.numDof b) :
    (r.reordered ρ).motion.Sized (cfg.reordered ρ π).numDof b := by
  rw [DataConverter.reordered_numDof]
  rcases hr with he | ⟨hp, hv, hbp, hbq⟩
  · have hnil : r.jointPos = [] ∧ r.jointVel = [] ∧ r.bodyPosW = []
        ∧ r.bodyQuatW = [] := by
      cases r
      cases he
      exact ⟨rfl, rfl, rfl, rfl⟩
    left
    unfold InferenceResult.reordered InferenceResult.motion
    rw [hnil.1, hnil.2.1, hnil.2.2.1, hnil.2.2.2, Reordering.apply_nil]
  · exact Or.inr ⟨Reordering.apply_length hp, Reordering.apply_length hv,
      hbp, hbq⟩

omit [Scalar F D] [Eigen F] in
theorem reordered_motion_empty {b : Nat}
    (hr : r.motion.Sized cfg.numDof b) :
    (r.reordered ρ).motion.empty = r.motion.empty := by
  apply Reordering.apply_isEmpty
  rcases hr with he | ⟨hp, -⟩
  · left
    cases r
    cases he
    rfl
  · exact Or.inr hp

omit [Eigen F] in
theorem Reordered.updateMotion
    (h : DataConverter.Reordered cfg ρ π dc dc')
    (hr : r.motion.Sized cfg.numDof cfg.numBodies) :
    DataConverter.Reordered cfg ρ π (updateMotion dc r)
      (updateMotion dc' (r.reordered ρ)) := by
  have hs := sound_updateMotion h.sound (r := r) (by
    rw [DataConverter.configure_numDof, DataConverter.configure_numBodies]
    exact hr)
  have hs' := sound_updateMotion h.sound' (r := r.reordered ρ) (by
    rw [DataConverter.configure_numDof, DataConverter.configure_numBodies]
    exact sized_reordered hr)
  refine ⟨hs, hs', ?_, ?_, ?_⟩
  · rw [updateMotion_eq, updateMotion_eq, reordered_motion_empty hr]
    cases r.motion.empty with
    | true => exact h.command
    | false => rfl
  · rw [updateMotion_eq, updateMotion_eq]
    exact h.last
  · rw [updateMotion_eq, updateMotion_eq]
    exact h.align

/-- The alignment is about bodies only. -/
theorem Reordered.anchorAlignment
    (h : DataConverter.Reordered cfg ρ π dc dc')
    (hr : r.motion.Sized cfg.numDof cfg.numBodies) :
    anchorAlignment dc'.cfg dc'.initAlign (r.reordered ρ).motion
      = anchorAlignment dc.cfg dc.initAlign r.motion := by
  unfold RlDeploy.anchorAlignment
  rw [reordered_motion_empty hr, h.cfg_eq, h.align]
  rfl

theorem Reordered.initMotion (hrobot : cfg.robotJointNames ≠ [])
    (hsized : cfg.Sized) (h : DataConverter.Reordered cfg ρ π dc dc')
    (hr : r.motion.Sized cfg.numDof cfg.numBodies) :
    ∃ dc₁ dc₁', initMotion dc r = .ok dc₁
      ∧ initMotion dc' (r.reordered ρ) = .ok dc₁'
      ∧ DataConverter.Reordered cfg ρ π dc₁ dc₁' := by
  have hready := DataConverter.configure_ready DataConverter.init
    (hsized.runnable (Or.inr hrobot))
  have hready' := DataConverter.configure_ready DataConverter.init
    ((DataConverter.reordered_sized (ρ := ρ) (π := π) hsized).runnable
      (Or.inr (DataConverter.reordered_robot hrobot)))
  have hm := initMotion_eq hready h.sound (r := r) (by
    rw [DataConverter.configure_numDof, DataConverter.configure_numBodies]
    exact hr)
  have hm' := initMotion_eq hready' h.sound' (r := r.reordered ρ) (by
    rw [DataConverter.configure_numDof, DataConverter.configure_numBodies]
    exact sized_reordered hr)
  have hu := Reordered.updateMotion h hr
  refine ⟨_, _, hm, hm', hu.sound.withAlign _, hu.sound'.withAlign _,
    hu.command, hu.last, Reordered.anchorAlignment h hr⟩

end Updates

-- ============================================================= the node

/-- Two nodes in the same place, with converters in the two orders. -/
structure NodeReordered (cfg : BeyondMimicConfig F)
    (ρ : Reordering cfg.numDof)
    (π : Reordering cfg.robotJointNames.length)
    (n n' : RLControllerNode F D) : Prop where
  same : n' = { n with converter := n'.converter }
  converter : DataConverter.Reordered cfg ρ π n.converter n'.converter

section Run

variable {cfg : BeyondMimicConfig F} {ρ : Reordering cfg.numDof}
  {π : Reordering cfg.robotJointNames.length}
  {f f' : List F → Int → InferenceResult F}
  {n n' : RLControllerNode F D}

omit [Eigen F] in
/-- The end of a tick looks at no joint. -/
theorem NodeReordered.advance (h : NodeReordered cfg ρ π n n')
    {dc dc' : DataConverter F}
    (hdc : DataConverter.Reordered cfg ρ π dc dc') :
    NodeReordered cfg ρ π (advance { n with converter := dc })
      (RLControllerNode.advance { n' with converter := dc' }) := by
  constructor
  · rw [h.same]
    unfold RLControllerNode.advance
    dsimp only
    split <;> rfl
  · rw [advance_converter, advance_converter]
    exact hdc

omit [Scalar F D] [Eigen F] in
/-- Asking the two models about an observation and its reordering. -/
theorem image_infer {a L : Nat} (hL : L = 5 * cfg.numDof + 3 + a)
    (hf : ∀ obs t, (f obs t).WellSized cfg.numDof cfg.numBodies)
    (hconj : Conjugate ρ a f f') {obs : List F} (hobs : obs.length = L)
    (t : Int) :
    Logged.Image (Act.reordered (F := F) (D := D) ρ π a)
      (fun r r' => r.WellSized cfg.numDof cfg.numBodies
        ∧ r' = r.reordered ρ)
      (Logged.lift ((Policy.ofFun L f).infer obs t))
      (Logged.lift ((Policy.ofFun L f').infer
        (DataConverter.reorderObservation ρ a obs) t)) :=
  Logged.Image.lift (Or.inr ⟨f obs t, _, rfl, rfl, hf obs t,
    hconj obs t (hobs.trans hL)⟩)

variable (hrobot : cfg.robotJointNames ≠ []) (hsized : cfg.Sized)
  (hj : cfg.jointNames.Nodup) (hr : cfg.robotJointNames.Nodup)

include hrobot hsized in
theorem NodeReordered.initializeMotion {a L : Nat}
    (hL : L = 5 * cfg.numDof + 3 + a)
    (hf : ∀ obs t, (f obs t).WellSized cfg.numDof cfg.numBodies)
    (hconj : Conjugate ρ a f f') (h : NodeReordered cfg ρ π n n') :
    Logged.Image (Act.reordered ρ π a) (NodeReordered cfg ρ π)
      (initializeMotion (Policy.ofFun L f) n)
      (RLControllerNode.initializeMotion (Policy.ofFun L f') n') := by
  have hzeros : DataConverter.reorderObservation ρ a
      (List.replicate L (0 : F)) = List.replicate L 0 := by
    rw [hL]
    exact DataConverter.reorderObservation_replicate ρ a 0
  have ht : n'.timestep = n.timestep := by rw [h.same]
  unfold RLControllerNode.initializeMotion
  rw [ht]
  show Logged.Image _ _
    (Logged.emit (Act.infer (List.replicate L 0) n.timestep) >>= _)
    (Logged.emit (Act.infer (List.replicate L 0) n.timestep) >>= _)
  have hemit := Logged.Image.emit (φ := Fault)
    (Act.reordered (F := F) (D := D) ρ π a)
    (.infer (List.replicate L 0) n.timestep)
  have hinfer := image_infer (D := D) (π := π) hL hf hconj
    (List.length_replicate (n := L) (a := (0 : F))) n.timestep
  rw [Act.reordered, hzeros] at hemit
  rw [hzeros] at hinfer
  refine hemit.bind fun _ _ _ => hinfer.bind ?_
  rintro r _ ⟨⟨hact, hmot⟩, rfl⟩
  obtain ⟨dc₁, dc₁', hm, hm', h₁⟩ :=
    Reordered.initMotion hrobot hsized h.converter hmot
  refine (Logged.Image.lift (Or.inr ⟨dc₁, dc₁', hm, hm', h₁⟩)).bind ?_
  intro dc₁ dc₁' h₁
  refine (Logged.Image.emit _ (Act.process r.actions)).bind fun _ _ _ => ?_
  obtain ⟨dc₂, dc₂', scaled, hp, hp', -, h₂⟩ :=
    h₁.processAction hsized hact
  refine (Logged.Image.lift (R := fun p p' => p = (dc₂, scaled)
      ∧ p' = (dc₂', ρ.apply scaled))
    (Or.inr ⟨_, _, hp, hp', rfl, rfl⟩)).bind ?_
  rintro _ _ ⟨rfl, rfl⟩
  apply Logged.Image.pure
  constructor
  · rw [h.same]
  · exact h₂

include hrobot hsized hj hr in
theorem NodeReordered.controlTick {a L : Nat}
    (ha : a = (DataConverter.init.configure cfg).anchorLen)
    (hL : L = 5 * cfg.numDof + 3 + a)
    (hf : ∀ obs t, (f obs t).WellSized cfg.numDof cfg.numBodies)
    (hconj : Conjugate ρ a f f') (h : NodeReordered cfg ρ π n n') :
    Logged.Image (Act.reordered ρ π a) (NodeReordered cfg ρ π)
      (controlTick (Policy.ofFun L f) n)
      (RLControllerNode.controlTick (Policy.ofFun L f') n') := by
  have ht : n'.timestep = n.timestep := by rw [h.same]
  have him : n'.latestImu = n.latestImu := by rw [h.same]
  have hjs : n'.latestJointState = n.latestJointState := by rw [h.same]
  obtain ⟨obs, hobs, hlen, hobs'⟩ := h.converter.buildObservation hrobot
    hsized hj hr n.latestImu.angularVelocity.narrow
    n.latestImu.orientation.narrow n.latestJointState.name
    n.latestJointState.position n.latestJointState.velocity
  rw [← ha] at hlen hobs'
  unfold RLControllerNode.controlTick
  rw [ht, him, hjs]
  refine (Logged.Image.lift (R := fun o o' => o = obs
      ∧ o' = DataConverter.reorderObservation ρ a obs)
    (Or.inr ⟨obs, _, hobs, hobs', rfl, rfl⟩)).bind ?_
  rintro obs _ ⟨rfl, rfl⟩
  refine (Logged.Image.emit _ (Act.infer obs n.timestep)).bind
    fun _ _ _ => ?_
  refine (image_infer hL hf hconj (hlen.trans hL.symm) n.timestep).bind ?_
  rintro r _ ⟨⟨hact, hmot⟩, rfl⟩
  have h₁ := Reordered.updateMotion h.converter hmot
  refine (Logged.Image.emit _ (Act.process r.actions)).bind
    fun _ _ _ => ?_
  obtain ⟨dc₂, dc₂', scaled, hp, hp', hscaled, h₂⟩ :=
    h₁.processAction hsized hact
  refine (Logged.Image.lift (R := fun p p' => p = (dc₂, scaled)
      ∧ p' = (dc₂', ρ.apply scaled))
    (Or.inr ⟨_, _, hp, hp', rfl, rfl⟩)).bind ?_
  rintro _ _ ⟨rfl, rfl⟩
  obtain ⟨target, target', hc, hc', hcmd⟩ :=
    h₂.command_eq (D := D) hrobot hsized hj hr hscaled
  refine (Logged.Image.lift (R := fun v v' => v = target ∧ v' = target')
    (Or.inr ⟨_, _, hc, hc', rfl, rfl⟩)).bind ?_
  rintro target target' ⟨rfl, rfl⟩
  have hemit := Logged.Image.emit (φ := Fault)
    (Act.reordered (F := F) ρ π a)
    (Act.publish (dc₂.actionToJointCmd target))
  rw [Act.reordered, ← hcmd] at hemit
  have hadvance := h.advance h₂
  rw [ht, him, hjs] at hadvance
  exact hemit.bind fun _ _ _ => Logged.Image.pure hadvance

include hrobot hsized hj hr in
theorem NodeReordered.step {a L : Nat}
    (ha : a = (DataConverter.init.configure cfg).anchorLen)
    (hL : L = 5 * cfg.numDof + 3 + a)
    (hf : ∀ obs t, (f obs t).WellSized cfg.numDof cfg.numBodies)
    (hconj : Conjugate ρ a f f') (h : NodeReordered cfg ρ π n n')
    (e : Event D) :
    Logged.Image (Act.reordered ρ π a) (NodeReordered cfg ρ π)
      (step (Policy.ofFun L f) n e)
      (RLControllerNode.step (Policy.ofFun L f') n' e) := by
  cases e with
  | jointState msg =>
      apply Logged.Image.pure
      refine ⟨?_, h.converter⟩
      rw [h.same]
      rfl
  | imu msg =>
      apply Logged.Image.pure
      refine ⟨?_, h.converter⟩
      rw [h.same]
      rfl
  | timer =>
      have hflags : SameFlags n n' := by
        rw [h.same]
        exact ⟨rfl, rfl, rfl, rfl⟩
      exact image_timer hflags h
        (h.initializeMotion hrobot hsized hL hf hconj)
        (h.controlTick hrobot hsized hj hr ha hL hf hconj)

end Run

/-- Reordering the model's joints and the robot's, in the configuration
and in the model alike, reorders the node's vectors and changes nothing
else: along every run neither node fails, every call of the model is the
other's with the observation reordered, and every command is the other's
with the same position for every joint name. -/
theorem order_irrelevant {cfg : BeyondMimicConfig F}
    (hrobot : cfg.robotJointNames ≠ []) (hsized : cfg.Sized)
    (hj : cfg.jointNames.Nodup) (hr : cfg.robotJointNames.Nodup)
    (ρ : Reordering cfg.numDof)
    (π : Reordering cfg.robotJointNames.length) {a L : Nat}
    (ha : a = (DataConverter.init.configure cfg).anchorLen)
    (hL : L = 5 * cfg.numDof + 3 + a)
    {f f' : List F → Int → InferenceResult F}
    (hf : ∀ obs t, (f obs t).WellSized cfg.numDof cfg.numBodies)
    (hconj : Conjugate ρ a f f') (s m : Int) (evs : List (Event D)) :
    (∃ n n', (run (Policy.ofFun L f) (start cfg s m) evs).out = .ok n
        ∧ (run (Policy.ofFun L f')
          (start (cfg.reordered ρ π) s m) evs).out = .ok n')
      ∧ (run (Policy.ofFun L f') (start (cfg.reordered ρ π) s m) evs).log
        = (run (Policy.ofFun L f) (start cfg s m) evs).log.map
          (Act.reordered ρ π a)
      ∧ published (run (Policy.ofFun L f')
          (start (cfg.reordered ρ π) s m) evs).log
        = (published (run (Policy.ofFun L f) (start cfg s m) evs).log).map
          (JointState.reordered · π) := by
  have hstart : NodeReordered (D := D) cfg ρ π (start cfg s m)
      (start (cfg.reordered ρ π) s m) :=
    ⟨rfl, DataConverter.reordered_configure⟩
  have himage := Logged.run_image (step (Policy.ofFun L f))
    (step (Policy.ofFun L f')) (Act.reordered ρ π a)
    (NodeReordered (D := D) cfg ρ π) Eq
    (by
      rintro n n' e _ h rfl
      exact h.step hrobot hsized hj hr ha hL hf hconj e)
    hstart (List.forall₂_refl evs)
  have hnet : (Policy.ofFun L f).WellSized cfg.numDof cfg.numBodies :=
    fun obs t => ⟨f obs t, rfl, hf obs t⟩
  obtain ⟨n, hn, -⟩ :=
    run_ok (hsized.runnable (Or.inr hrobot)) hnet s m evs
  obtain ⟨hlog, hout⟩ := himage
  refine ⟨?_, hlog, ?_⟩
  · rcases hout with ⟨e, he, -⟩ | ⟨n₁, n₁', h₁, h₁', -⟩
    · rw [run] at hn
      rw [hn] at he
      cases he
    · exact ⟨n₁, n₁', h₁, h₁'⟩
  · rw [run, hlog, published_map (h := (JointState.reordered · π))
      (fun _ => rfl) (fun _ _ => ⟨_, _, rfl⟩) (fun _ => ⟨_, rfl⟩)]
    rfl

/-- The two joints the other way round. -/
def swap : Reordering 2 := ⟨[1, 0], by decide⟩

/-- Both lists of the crossed configuration the other way round, and the
model that answers in that order. -/
theorem order_irrelevant_crossed :
    (DataConverter.crossed.reordered swap swap).jointNames = ["knee", "hip"]
      ∧ published (run (Policy.ofFun 19 fun _ _ => fullResult.reordered swap)
          (start (DataConverter.crossed.reordered swap swap) 3 4)
          twoReady).log
        = (published (run (Policy.ofFun 19 fun _ _ => fullResult)
          (start DataConverter.crossed 3 4) twoReady).log).map
          (JointState.reordered · swap) := by
  have hconj : Conjugate swap 6 (fun _ _ => fullResult)
      (fun _ _ => fullResult.reordered swap) := fun _ _ _ => rfl
  have hall := order_irrelevant (a := 6) (L := 19) (by decide)
    DataConverter.crossed_sized (by decide) (by decide) swap swap rfl rfl
    (fun _ _ => fullResult_wellSized) hconj 3 4 twoReady
  exact ⟨rfl, hall.2.2⟩

end RLControllerNode

end RlDeploy
