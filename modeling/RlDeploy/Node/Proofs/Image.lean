/-
Two nodes with the same flags, in lockstep.

The three guards of `timerCallback` read flags only. When two nodes agree
on these, it is enough to compare what lies behind the guards:
`initializeMotion` and a control tick (`image_timer`).
-/
import RlDeploy.Lib.Image
import RlDeploy.Node.Basic

namespace RlDeploy

open Lib

variable {F D : Type} [Scalar F D] [Eigen F]

namespace RLControllerNode

omit [Scalar F D] [Eigen F] in
/-- Two nodes with the same flags. -/
structure SameFlags (n n' : RLControllerNode F D) : Prop where
  jointReceived : n'.jointReceived = n.jointReceived
  imuReceived : n'.imuReceived = n.imuReceived
  initialized : n'.initialized = n.initialized
  flagMotionDone : n'.flagMotionDone = n.flagMotionDone

variable {g : Act F D → Act F D} {net net' : Policy F}
  {R : RLControllerNode F D → RLControllerNode F D → Prop}
  {n n' : RLControllerNode F D}

theorem image_timer (hf : SameFlags n n') (hR : R n n')
    (hinit : Logged.Image g R (initializeMotion net n)
      (initializeMotion net' n'))
    (htick : Logged.Image g R (controlTick net n)
      (controlTick net' n')) :
    Logged.Image g R (n.timerCallback net) (n'.timerCallback net') := by
  unfold timerCallback
  rw [hf.jointReceived, hf.imuReceived, hf.initialized,
    hf.flagMotionDone]
  by_cases hw : (!n.jointReceived || !n.imuReceived) = true
  · rw [if_pos hw, if_pos hw]
    exact Logged.Image.pure hR
  rw [if_neg hw, if_neg hw]
  by_cases hi : (!n.initialized) = true
  · rw [if_pos hi, if_pos hi]
    exact hinit
  rw [if_neg hi, if_neg hi]
  by_cases hd : n.flagMotionDone = true
  · rw [if_pos hd, if_pos hd]
    exact Logged.Image.pure hR
  rw [if_neg hd, if_neg hd]
  exact htick

omit [Scalar F D] [Eigen F] in
/-- Translating only the calls of the model leaves the commands. -/
theorem published_map {h : JointState D → JointState D}
    (hpub : ∀ cmd, g (.publish cmd) = .publish (h cmd))
    (hinfer : ∀ obs t, ∃ obs' t', g (.infer obs t) = .infer obs' t')
    (hprocess : ∀ a, ∃ a', g (.process a) = .process a')
    (log : List (Act F D)) :
    published (log.map g) = (published log).map h := by
  induction log with
  | nil => rfl
  | cons act log ih =>
      unfold published at ih ⊢
      rw [List.map_cons]
      cases act with
      | infer obs t =>
          obtain ⟨obs', t', hg⟩ := hinfer obs t
          rw [hg]
          exact ih
      | process a =>
          obtain ⟨a', hg⟩ := hprocess a
          rw [hg]
          exact ih
      | publish cmd =>
          rw [hpub]
          exact congrArg (h cmd :: ·) ih

end RLControllerNode

end RlDeploy
