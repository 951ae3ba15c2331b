/-
A model that need not answer.

Inference goes through ONNX Runtime, which may throw at any call. Where
the answers that do come have full size, nothing else stops the node:
the run invariant of the converter holds up to the call that fails
(`run_sound`), a callback that stops has neither processed an action nor
published a command (`stop_of_model`), and the fault is the model's own
(`fault_of_model`).
-/
import RlDeploy.Node.Proofs.Steady

namespace RlDeploy

open Lib

variable {F D : Type} [Scalar F D]

/-- The answers of a model have full size, where it answers. -/
def Policy.FullSize (n b : Nat) (net : Policy F) : Prop :=
  ∀ obs t r, net.infer obs t = .ok r → r.WellSized n b

namespace RLControllerNode

omit [Scalar F D] in
/-- The actions handed to `processAction` among logged actions. -/
def processedActions (log : List (Act F D)) : List (List F) :=
  log.filterMap fun
    | .process actions => some actions
    | _ => none

variable [Eigen F] {net : Policy F} {base : DataConverter F}
  {n n' : RLControllerNode F D}

/-- A callback that returns keeps the run invariant. -/
theorem step_sound (hb : base.Ready)
    (hnet : net.FullSize base.numDof base.cfg.numBodies)
    (h : DataConverter.Sound base n.converter) {e : Event D}
    (hstep : (step net n e).out = .ok n') :
    DataConverter.Sound base n'.converter := by
  cases e with
  | jointState msg => cases hstep; exact h
  | imu msg => cases hstep; exact h
  | timer =>
      have hts := timerStep_of_ok hstep
      generalize (n.timerCallback net).log = l at hts
      cases hts with
      | waiting => exact h
      | done => exact h
      | init hw hi hr hm hp =>
          obtain ⟨hlen, hmot⟩ := hnet _ _ _ hr
          obtain ⟨dc₁, hm', hs₁⟩ := sound_initMotion hb h hmot
          cases hm'.symm.trans hm
          obtain ⟨hp', hs₂, -⟩ := hs₁.processAction hb.scales hlen
          cases hp'.symm.trans hp
          exact hs₂
      | tick hw hi hd ho hr hp ht =>
          obtain ⟨hlen, hmot⟩ := hnet _ _ _ hr
          obtain ⟨hp', hs₂, -⟩ := (sound_updateMotion h
            hmot).processAction hb.scales hlen
          cases hp'.symm.trans hp
          rw [advance_converter]
          exact hs₂

/-- A callback that stops was stopped by the model, before it processed
or published anything. -/
theorem stop_of_model (hb : base.Ready)
    (hnet : net.FullSize base.numDof base.cfg.numBodies)
    (h : DataConverter.Sound base n.converter) {l : List (Act F D)}
    {f : Fault} (hstop : TimerStop net n l f) :
    (∃ obs t, net.infer obs t = .error f)
      ∧ processedActions l = [] ∧ published l = [] := by
  cases hstop with
  | initInfer hw hi hr => exact ⟨⟨_, _, hr⟩, rfl, rfl⟩
  | infer hw hi hd ho hr => exact ⟨⟨_, _, hr⟩, rfl, rfl⟩
  | initMotion hw hi hr hm =>
      obtain ⟨-, hmot⟩ := hnet _ _ _ hr
      obtain ⟨dc₁, hm', -⟩ := sound_initMotion hb h hmot
      rw [hm'] at hm
      cases hm
  | initProcess hw hi hr hm hp =>
      obtain ⟨hlen, hmot⟩ := hnet _ _ _ hr
      obtain ⟨dc₁, hm', hs₁⟩ := sound_initMotion hb h hmot
      cases hm'.symm.trans hm
      obtain ⟨hp', -, -⟩ := hs₁.processAction hb.scales hlen
      rw [hp'] at hp
      cases hp
  | observe hw hi hd ho =>
      obtain ⟨_, -, ho'⟩ := DataConverter.buildObservation_eq
        (h.observable hb) n.latestImu.angularVelocity.narrow
        n.latestImu.orientation.narrow n.latestJointState.name
        n.latestJointState.position n.latestJointState.velocity
      rw [ho'] at ho
      cases ho
  | process hw hi hd ho hr hp =>
      obtain ⟨hlen, hmot⟩ := hnet _ _ _ hr
      obtain ⟨hp', -, -⟩ := (sound_updateMotion h hmot).processAction
        hb.scales hlen
      rw [hp'] at hp
      cases hp
  | target hw hi hd ho hr hp ht =>
      obtain ⟨hlen, hmot⟩ := hnet _ _ _ hr
      obtain ⟨hp', hs₂, hact⟩ := (sound_updateMotion h
        hmot).processAction hb.scales hlen
      cases hp'.symm.trans hp
      rw [hs₂.computePdTarget hb.default hact] at ht
      cases ht

/-- A run that returns keeps the run invariant. -/
theorem run_sound {cfg : BeyondMimicConfig F} (hcfg : cfg.Runnable)
    (hnet : net.FullSize cfg.numDof cfg.numBodies) {s m : Int}
    {evs : List (Event D)}
    (h : (run net (start cfg s m) evs).out = .ok n) :
    DataConverter.Sound (DataConverter.init.configure cfg)
      n.converter := by
  have hb := DataConverter.configure_ready DataConverter.init hcfg
  rw [← DataConverter.configure_numDof DataConverter.init cfg,
    ← DataConverter.configure_numBodies DataConverter.init cfg] at hnet
  exact Logged.run_inv
    (fun n : RLControllerNode F D =>
      DataConverter.Sound (DataConverter.init.configure cfg) n.converter)
    (fun _ _ _ hs hstep => step_sound hb hnet hs hstep)
    (DataConverter.configure_sound cfg) h

/-- Only the model stops a run. -/
theorem fault_of_model {cfg : BeyondMimicConfig F}
    (hcfg : cfg.Runnable)
    (hnet : net.FullSize cfg.numDof cfg.numBodies) {s m : Int}
    {evs : List (Event D)} {f : Fault}
    (h : (run net (start cfg s m : RLControllerNode F D) evs).out
      = .error f) :
    ∃ obs t, net.infer obs t = .error f := by
  have hb := DataConverter.configure_ready DataConverter.init hcfg
  rw [← DataConverter.configure_numDof DataConverter.init cfg,
    ← DataConverter.configure_numBodies DataConverter.init cfg] at hnet
  refine Logged.run_fault
    (fun n : RLControllerNode F D =>
      DataConverter.Sound (DataConverter.init.configure cfg) n.converter)
    (fun f => ∃ obs t, net.infer obs t = .error f) ?_
    (fun _ _ _ hs hstep => step_sound hb hnet hs hstep)
    (DataConverter.configure_sound cfg) h
  intro n e f hs hstep
  cases e with
  | jointState msg => cases hstep
  | imu msg => cases hstep
  | timer => exact (stop_of_model hb hnet hs (timerStop_of_error hstep)).1

end RLControllerNode

end RlDeploy
