/-
The observation's layout: every observation has the same blocks at the
same offsets.

Three conditions decide how a block is filled (is there a motion
command, are there bodies, is the state estimator used) and each goes
through its own branch of `buildObservation`. Only the last one may move
an offset, and it is part of the configuration: an empty command and a
command without bodies are filled with as many zeros as the values they
stand for. The policy therefore reads the joint positions of every
observation in one place.
-/
import RlDeploy.Converter.Proofs.Run

namespace RlDeploy

open Lib

variable {F D : Type} [Scalar F D]

namespace DataConverter

/-- The `len` entries of an observation from `start` on. -/
def block (obs : List F) (start len : Nat) : List F :=
  (obs.drop start).take len

omit [Scalar F D] in
/-- In a concatenation of parts, the block that starts after the first
`k` parts and is as long as the next one is that part. -/
theorem block_flatten {parts : List (List F)} (k : Nat) {p : List F}
    {start len : Nat} (hk : parts[k]? = some p)
    (hs : (parts.take k).flatten.length = start) (hl : p.length = len) :
    block parts.flatten start len = p := by
  obtain ⟨hlt, rfl⟩ := List.getElem?_eq_some_iff.mp hk
  have hsplit : parts.flatten = (parts.take k).flatten
      ++ (parts[k] ++ (parts.drop (k + 1)).flatten) := by
    rw [← List.flatten_cons, ← List.flatten_append,
      ← List.drop_eq_getElem_cons hlt, List.take_append_drop]
  unfold block
  rw [hsplit, List.drop_left' hs, List.take_left' hl]

/-- The offset of the blocks after the anchor: `2N`, and the six or nine
values of the anchor block. -/
def anchorEnd (dc : DataConverter F) : Nat := 2 * dc.numDof + dc.anchorLen

/-- The layout of an observation built from the message `names`, `pos`,
`vel` and the IMU values `w`, `q`. -/
structure Layout [Eigen F] (dc : DataConverter F) (w : Vec3 F)
    (q : Quat F) (names : List String) (pos vel : List D)
    (obs : List F) : Prop where
  length : obs.length = 5 * dc.numDof
    + (if dc.cfg.withoutStateEstimator then 9 else 12)
  refPos : block obs 0 dc.numDof
    = if dc.command.empty then List.replicate dc.numDof 0
      else dc.command.jointPos
  refVel : block obs dc.numDof dc.numDof
    = if dc.command.empty then List.replicate dc.numDof 0
      else dc.command.jointVel
  /-- The anchor position, in the configurations that have one, and the
  six orientation values right before the angular velocity. -/
  anchor : dc.anchorBlock q
    = .ok (block obs (2 * dc.numDof) (dc.anchorLen - 6)
      ++ block obs (dc.anchorEnd - 6) 6)
  angVel : block obs dc.anchorEnd 3 = [w.x, w.y, w.z]
  relPos : block obs (dc.anchorEnd + 3) dc.numDof
    = dc.posBlock names pos
  jointVel : block obs (dc.anchorEnd + 3 + dc.numDof) dc.numDof
    = dc.velBlock names vel
  lastAction : block obs (dc.anchorEnd + 3 + 2 * dc.numDof) dc.numDof
    = dc.lastAction

/-- In every observation the anchor block stands after the references. -/
theorem block_anchor [Eigen F] {dc : DataConverter F} {w : Vec3 F}
    {q : Quat F} {names : List String} {pos vel : List D}
    {obs anchor : List F}
    (h : dc.buildObservation w q names pos vel = .ok obs)
    (ha : dc.anchorBlock q = .ok anchor) :
    block obs (2 * dc.numDof) dc.anchorLen = anchor := by
  have hread := buildObservation_isOk_iff.mp ⟨obs, h⟩
  obtain ⟨anchor', ha', heq⟩ :=
    buildObservation_eq hread w q names pos vel
  cases ha.symm.trans ha'
  rw [h] at heq
  cases heq
  have hlen : (dc.refPos ++ dc.refVel).length = 2 * dc.numDof := by
    rw [List.length_append, refPos_length hread.command,
      refVel_length hread.command]
    omega
  unfold block
  simp only [List.append_assoc]
  rw [← List.append_assoc dc.refPos, List.drop_left' hlen,
    List.take_left' (anchorBlock_length ha)]

/-- Full-size vectors are their own prefixes: the blocks that copy a
member hold all of it. -/
theorem zerosOrTake_eq {n : Nat} {e : Bool} {xs : List F}
    (h : e = false → xs.length = n) :
    (if e then List.replicate n 0 else xs.take n)
      = if e then List.replicate n 0 else xs := by
  cases e with
  | true => rfl
  | false => exact List.take_of_length_le (h rfl).le

/-- A command that is not empty has full-size joint vectors. -/
theorem Sound.jointLengths {base dc : DataConverter F}
    (h : Sound base dc) (he : dc.command.empty = false) :
    dc.command.jointPos.length = dc.numDof
      ∧ dc.command.jointVel.length = dc.numDof := by
  rw [h.setup.numDof]
  rcases h.command with hc | ⟨hp, hv, -, -⟩
  · rw [hc] at he
    cases he
  · exact ⟨hp, hv⟩

theorem refPos_eq {base dc : DataConverter F} (h : Sound base dc) :
    dc.refPos = if dc.command.empty then List.replicate dc.numDof 0
      else dc.command.jointPos :=
  zerosOrTake_eq fun he => (h.jointLengths he).1

theorem refVel_eq {base dc : DataConverter F} (h : Sound base dc) :
    dc.refVel = if dc.command.empty then List.replicate dc.numDof 0
      else dc.command.jointVel :=
  zerosOrTake_eq fun he => (h.jointLengths he).2

theorem lastBlock_eq {base dc : DataConverter F} (h : Sound base dc) :
    dc.lastBlock = dc.lastAction := by
  unfold lastBlock
  exact List.take_of_length_le (by rw [h.last, h.setup.numDof])

/-- Under the run invariant `buildObservation` returns, with the
layout. -/
theorem buildObservation_layout [Eigen F] {base dc : DataConverter F}
    (hb : base.Ready) (h : Sound base dc) (w : Vec3 F) (q : Quat F)
    (names : List String) (pos vel : List D) :
    ∃ obs, dc.buildObservation w q names pos vel = .ok obs
      ∧ dc.Layout w q names pos vel obs := by
  have hobs := h.observable hb
  obtain ⟨anchor, hanchor, heq⟩ :=
    buildObservation_eq hobs w q names pos vel
  refine ⟨_, heq, ?_⟩
  have hrp := refPos_length hobs.command
  have hrv := refVel_length hobs.command
  have ha := anchorBlock_length hanchor
  have hp := posBlock_length hobs.tarLen hobs.default names pos
  have hv := velBlock_length hobs.tarLen names vel
  have hl := lastBlock_length hobs.last
  have h6 : 6 ≤ dc.anchorLen := by unfold anchorLen; split <;> omega
  have ht : (anchor.take (dc.anchorLen - 6)).length = dc.anchorLen - 6 := by
    rw [List.length_take, ha]
    omega
  have hd : (anchor.drop (dc.anchorLen - 6)).length = 6 := by
    rw [List.length_drop, ha]
    omega
  have hparts : dc.refPos ++ dc.refVel ++ anchor ++ [w.x, w.y, w.z]
      ++ dc.posBlock names pos ++ dc.velBlock names vel ++ dc.lastBlock
      = [dc.refPos, dc.refVel, anchor.take (dc.anchorLen - 6),
          anchor.drop (dc.anchorLen - 6), [w.x, w.y, w.z],
          dc.posBlock names pos, dc.velBlock names vel,
          dc.lastBlock].flatten := by
    conv_lhs => rw [← List.take_append_drop (dc.anchorLen - 6) anchor]
    simp only [List.flatten_cons, List.flatten_nil, List.append_nil,
      List.append_assoc]
  rw [hparts]
  constructor
  case length =>
    simp only [List.flatten_cons, List.flatten_nil, List.length_append,
      List.length_cons, List.length_nil, hrp, hrv, ht, hd, hp, hv, hl]
    unfold anchorLen
    cases dc.cfg.withoutStateEstimator
    · simp only [Bool.false_eq_true, if_false]
      omega
    · simp only [if_true]
      omega
  case refPos =>
    rw [← refPos_eq h]
    exact block_flatten 0 rfl rfl hrp
  case refVel =>
    rw [← refVel_eq h]
    exact block_flatten 1 rfl (by simp [hrp]) hrv
  case anchor =>
    rw [block_flatten 2 rfl (by simp [hrp, hrv]; omega) ht,
      block_flatten 3 rfl (by simp [hrp, hrv, ha, anchorEnd]; omega) hd,
      List.take_append_drop, hanchor]
  case angVel =>
    exact block_flatten 4 rfl
      (by simp [hrp, hrv, ha, anchorEnd]; omega) rfl
  case relPos =>
    exact block_flatten 5 rfl
      (by simp [hrp, hrv, ha, anchorEnd]; omega) hp
  case jointVel =>
    exact block_flatten 6 rfl
      (by simp [hrp, hrv, ha, hp, anchorEnd]; omega) hv
  case lastAction =>
    rw [← lastBlock_eq h]
    exact block_flatten 7 rfl
      (by simp [hrp, hrv, ha, hp, hv, anchorEnd]; omega) hl

/-- Every observation has one layout: whatever the calls since
`configure`, and for every message, `buildObservation` returns, changes
no member, and its blocks start at offsets that depend on the joint
count and the estimator flag alone. -/
theorem observation_layout [Eigen F] {cfg : BeyondMimicConfig F}
    (hrobot : cfg.robotJointNames ≠ []) (hsized : cfg.Sized)
    {ops : List (Op F D)}
    (hops : ∀ op ∈ ops, op.WellSized cfg.numDof cfg.numBodies) :
    ∃ dc, (run (init.configure cfg) ops).out = .ok dc
      ∧ dc.numDof = cfg.numDof
      ∧ dc.cfg.withoutStateEstimator = cfg.withoutStateEstimator
      ∧ ∀ (w : Vec3 F) (q : Quat F) (names : List String)
          (pos vel : List D), ∃ obs,
          step dc (.buildObservation w q names pos vel)
            = ⟨[.observation obs], .ok dc⟩
          ∧ dc.Layout w q names pos vel obs := by
  have hrunnable := hsized.runnable (Or.inr hrobot)
  obtain ⟨dc, hrun, hs⟩ := run_configure_ok hrunnable hops
  refine ⟨dc, hrun, ?_, ?_, ?_⟩
  · exact hs.setup.joints
  · obtain ⟨k, hk⟩ := hs.setup.config
    rw [hk]
  · intro w q names pos vel
    obtain ⟨obs, hobs, hlay⟩ := buildObservation_layout
      (configure_ready _ hrunnable) hs w q names pos vel
    exact ⟨obs, by simp [step, hobs], hlay⟩

theorem observation_layout_crossed :
    ∃ dc, (run (init.configure crossed) crossedOps).out = .ok dc
      ∧ dc.numDof = crossed.numDof
      ∧ dc.cfg.withoutStateEstimator = crossed.withoutStateEstimator
      ∧ ∀ (w : Vec3 ℚ) (q : Quat ℚ) (names : List String)
          (pos vel : List ℚ), ∃ obs,
          step dc (.buildObservation w q names pos vel)
            = ⟨[.observation obs], .ok dc⟩
          ∧ dc.Layout w q names pos vel obs :=
  observation_layout (by decide) crossed_sized crossedOps_wellSized

end DataConverter

end RlDeploy
