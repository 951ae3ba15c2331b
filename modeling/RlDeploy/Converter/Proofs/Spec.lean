/-
One specification per member function of the converter: when it returns,
and what. Every later proof goes through these and unfolds no function
body.

# When a call returns

A call can only fail by an index past the end of a vector, so each
function has an exact condition on lengths: `Observable` for
`buildObservation`, three lengths for `processAction`, one for
`computePdTarget`; `actionToJointCmd` has none. No condition mentions
the message: names and arrays of any length are read safely.

# What it returns

`buildObservation_eq` gives the observation as the concatenation of its
blocks, `processAction_eq` and `computePdTarget_eq` the vectors as
`zipWith`s of the members and the argument.
-/
import RlDeploy.Converter.Basic

namespace RlDeploy

open Lib

variable {F D : Type} [Scalar F D]

-- ====================================================== the anchor index

namespace BeyondMimicConfig

omit [Scalar F D]

/-- `setAnchorBodyIndex` touches nothing but the index, and the index it
sets is a body's, or `0`. -/
theorem setAnchorBodyIndex_eq (cfg : BeyondMimicConfig F) :
    ∃ k : Nat, cfg.setAnchorBodyIndex = { cfg with anchorBodyIndex := k }
      ∧ (0 < cfg.numBodies → k < cfg.numBodies) := by
  unfold setAnchorBodyIndex
  cases h : cfg.bodyNames.findIdx? (· == cfg.anchorBodyName) with
  | none => exact ⟨0, rfl, fun hpos => hpos⟩
  | some i =>
      obtain ⟨hlt, -⟩ := List.findIdx?_eq_some_iff_getElem.mp h
      exact ⟨i, rfl, fun _ => hlt⟩

@[simp] theorem setAnchorBodyIndex_jointNames
    (cfg : BeyondMimicConfig F) :
    cfg.setAnchorBodyIndex.jointNames = cfg.jointNames := by
  obtain ⟨k, hk, -⟩ := cfg.setAnchorBodyIndex_eq
  rw [hk]

@[simp] theorem setAnchorBodyIndex_numDof (cfg : BeyondMimicConfig F) :
    cfg.setAnchorBodyIndex.numDof = cfg.numDof := by
  unfold numDof
  rw [setAnchorBodyIndex_jointNames]

@[simp] theorem setAnchorBodyIndex_numBodies
    (cfg : BeyondMimicConfig F) :
    cfg.setAnchorBodyIndex.numBodies = cfg.numBodies := by
  obtain ⟨k, hk, -⟩ := cfg.setAnchorBodyIndex_eq
  rw [hk]
  rfl

end BeyondMimicConfig

-- ================================================== the motion command

namespace MotionCommand

omit [Scalar F D]

/-- A command as the model outputs it: nothing, or every vector at its
full size for `n` joints and `b` bodies. -/
def Sized (n b : Nat) (c : MotionCommand F) : Prop :=
  c = {} ∨ (c.jointPos.length = n ∧ c.jointVel.length = n
    ∧ c.bodyPosW.length = 3 * b ∧ c.bodyQuatW.length = 4 * b)

instance [DecidableEq F] (n b : Nat) (c : MotionCommand F) :
    Decidable (c.Sized n b) :=
  inferInstanceAs (Decidable (_ ∨ _))

theorem empty_iff {c : MotionCommand F} :
    c.empty = true ↔ c.jointPos = [] := List.isEmpty_iff

/-- The accessors' signed indices, as positions in the vector. -/
theorem bodyPos_natCast (c : MotionCommand F) (k : Nat) :
    c.bodyPos k = (do
      let x ← read (.index .bodyPosW) c.bodyPosW (3 * k)
      let y ← read (.index .bodyPosW) c.bodyPosW (3 * k + 1)
      let z ← read (.index .bodyPosW) c.bodyPosW (3 * k + 2)
      return ⟨x, y, z⟩) := by
  unfold bodyPos
  rw [show ((k : Int) * 3) = ((3 * k : Nat) : Int) by push_cast; ring]
  simp only [← readInt_natCast]
  rfl

theorem bodyQuat_natCast (c : MotionCommand F) (k : Nat) :
    c.bodyQuat k = (do
      let w ← read (.index .bodyQuatW) c.bodyQuatW (4 * k)
      let x ← read (.index .bodyQuatW) c.bodyQuatW (4 * k + 1)
      let y ← read (.index .bodyQuatW) c.bodyQuatW (4 * k + 2)
      let z ← read (.index .bodyQuatW) c.bodyQuatW (4 * k + 3)
      return ⟨w, x, y, z⟩) := by
  unfold bodyQuat
  rw [show ((k : Int) * 4) = ((4 * k : Nat) : Int) by push_cast; ring]
  simp only [← readInt_natCast]
  rfl

theorem bodyPos_isOk_iff {c : MotionCommand F} {k : Nat} :
    (∃ v, c.bodyPos k = .ok v) ↔ 3 * k + 2 < c.bodyPosW.length := by
  rw [bodyPos_natCast]
  constructor
  · rintro ⟨v, hv⟩
    simp only [bind_eq_ok_iff] at hv
    obtain ⟨x, -, y, -, z, hz, -⟩ := hv
    exact read_isOk_iff.mp ⟨z, hz⟩
  · intro h
    rw [read_of_lt _ (by omega : 3 * k < c.bodyPosW.length),
      read_of_lt _ (by omega : 3 * k + 1 < c.bodyPosW.length),
      read_of_lt _ h]
    exact ⟨_, rfl⟩

theorem bodyQuat_isOk_iff {c : MotionCommand F} {k : Nat} :
    (∃ q, c.bodyQuat k = .ok q) ↔ 4 * k + 3 < c.bodyQuatW.length := by
  rw [bodyQuat_natCast]
  constructor
  · rintro ⟨q, hq⟩
    simp only [bind_eq_ok_iff] at hq
    obtain ⟨w, -, x, -, y, -, z, hz, -⟩ := hq
    exact read_isOk_iff.mp ⟨z, hz⟩
  · intro h
    rw [read_of_lt _ (by omega : 4 * k < c.bodyQuatW.length),
      read_of_lt _ (by omega : 4 * k + 1 < c.bodyQuatW.length),
      read_of_lt _ (by omega : 4 * k + 2 < c.bodyQuatW.length),
      read_of_lt _ h]
    exact ⟨_, rfl⟩

theorem readInt_error {α : Type} {v e : Fault} {xs : List α} {i : Int}
    (h : readInt v xs i = .error e) : v = e := by
  unfold readInt at h
  split at h
  · cases h
    rfl
  · exact (read_eq_error_iff.mp h).2

/-- The accessors can only run out of their own vector. -/
theorem bodyPos_error {c : MotionCommand F} {idx : Int} {e : Fault}
    (h : c.bodyPos idx = .error e) : e = .index .bodyPosW := by
  unfold bodyPos at h
  simp only [bind_eq_error_iff] at h
  rcases h with h | ⟨_, -, h | ⟨_, -, h | ⟨_, -, h⟩⟩⟩
  · exact (readInt_error h).symm
  · exact (readInt_error h).symm
  · exact (readInt_error h).symm
  · cases h

theorem bodyQuat_error {c : MotionCommand F} {idx : Int} {e : Fault}
    (h : c.bodyQuat idx = .error e) : e = .index .bodyQuatW := by
  unfold bodyQuat at h
  simp only [bind_eq_error_iff] at h
  rcases h with h | ⟨_, -, h | ⟨_, -, h | ⟨_, -, h | ⟨_, -, h⟩⟩⟩⟩
  · exact (readInt_error h).symm
  · exact (readInt_error h).symm
  · exact (readInt_error h).symm
  · exact (readInt_error h).symm
  · cases h

end MotionCommand

-- ==================================================== the blocks, named

namespace DataConverter

/-- Block 1, first half: the reference positions, zero without one. -/
def refPos (dc : DataConverter F) : List F :=
  if dc.command.empty then List.replicate dc.numDof 0
  else dc.command.jointPos.take dc.numDof

/-- Block 1, second half: the reference velocities, zero without one. -/
def refVel (dc : DataConverter F) : List F :=
  if dc.command.empty then List.replicate dc.numDof 0
  else dc.command.jointVel.take dc.numDof

/-- Block 5: joint positions relative to the default, in model order. -/
def posBlock (dc : DataConverter F) (jointNames : List String)
    (dofPos : List D) : List F :=
  List.zipWith (fun p d => p - d)
    ((dc.robot2model.fitted (dc.controlledVals jointNames dofPos)).take
      dc.numDof)
    (dc.cfg.defaultDofPos.take dc.numDof)

/-- Block 6: joint velocities, in model order. -/
def velBlock (dc : DataConverter F) (jointNames : List String)
    (dofVel : List D) : List F :=
  (dc.robot2model.fitted (dc.controlledVals jointNames dofVel)).take
    dc.numDof

/-- Block 7: the last smoothed action. -/
def lastBlock (dc : DataConverter F) : List F :=
  dc.lastAction.take dc.numDof

/-- The size of block 2: six orientation values, and the position when
the state estimator is used. -/
def anchorLen (dc : DataConverter F) : Nat :=
  if dc.cfg.withoutStateEstimator then 6 else 9

-- =============================================== when the blocks are ok

/-- The joint vectors of a present motion command reach `numDof`. -/
def CommandReadable (dc : DataConverter F) : Prop :=
  dc.command.empty = true ∨ (dc.numDof ≤ dc.command.jointPos.length
    ∧ dc.numDof ≤ dc.command.jointVel.length)

/-- The body vectors of a present motion command reach the anchor. -/
def AnchorReadable (dc : DataConverter F) : Prop :=
  dc.command.empty = false → 0 < dc.cfg.numBodies →
    0 ≤ dc.cfg.anchorBodyIndex →
    3 * dc.cfg.anchorBodyIndex.toNat + 2 < dc.command.bodyPosW.length
      ∧ 4 * dc.cfg.anchorBodyIndex.toNat + 3 < dc.command.bodyQuatW.length

/-- What `buildObservation` needs of the members. -/
structure Observable (dc : DataConverter F) : Prop where
  tarLen : dc.numDof ≤ dc.robot2model.tarLen
  default : dc.numDof ≤ dc.cfg.defaultDofPos.length
  last : dc.numDof ≤ dc.lastAction.length
  command : dc.CommandReadable
  anchor : dc.AnchorReadable

theorem commandBlock_eq {dc : DataConverter F} (h : dc.CommandReadable) :
    dc.commandBlock = .ok (dc.refPos ++ dc.refVel) := by
  unfold commandBlock refPos refVel
  cases he : dc.command.empty with
  | true =>
      simp only [if_true]
      rw [List.replicate_append_replicate, Nat.mul_two]
  | false =>
      rcases h with h | ⟨hp, hv⟩
      · rw [he] at h
        cases h
      · simp only [Bool.false_eq_true, if_false]
        rw [tabulate_read _ hp, tabulate_read _ hv]
        rfl

theorem commandBlock_isOk_iff {dc : DataConverter F} :
    (∃ b, dc.commandBlock = .ok b) ↔ dc.CommandReadable := by
  constructor
  · rintro ⟨b, hb⟩
    unfold commandBlock at hb
    split at hb
    next he => exact Or.inl he
    next =>
      simp only [bind_eq_ok_iff] at hb
      obtain ⟨pos, hpos, vel, hvel, -⟩ := hb
      exact Or.inr ⟨tabulate_read_isOk_iff.mp ⟨pos, hpos⟩,
        tabulate_read_isOk_iff.mp ⟨vel, hvel⟩⟩
  · intro h
    exact ⟨_, commandBlock_eq h⟩

/-- Block 1 can only run out of the command's joint vectors. -/
theorem commandBlock_error {dc : DataConverter F} {e : Fault}
    (h : dc.commandBlock = .error e) :
    e = .index .jointPos ∨ e = .index .jointVel := by
  unfold commandBlock at h
  split at h
  · cases h
  · rcases bind_eq_error_iff.mp h with h | ⟨_, -, h⟩
    · exact Or.inl (tabulate_read_error h).1.symm
    · rcases bind_eq_error_iff.mp h with h | ⟨_, -, h⟩
      · exact Or.inr (tabulate_read_error h).1.symm
      · cases h

section Anchor

variable [Eigen F]

theorem anchorBlock_isOk_iff {dc : DataConverter F} {q : Quat F} :
    (∃ b, dc.anchorBlock q = .ok b) ↔ dc.AnchorReadable := by
  unfold anchorBlock AnchorReadable
  cases he : dc.command.empty with
  | true => simp
  | false =>
      by_cases hb : 0 < dc.cfg.numBodies
      case neg => simp [hb]
      by_cases hi : 0 ≤ dc.cfg.anchorBodyIndex
      case neg => simp [hi]
      obtain ⟨k, hk⟩ := Int.eq_ofNat_of_zero_le hi
      rw [hk, Int.toNat_natCast, ← MotionCommand.bodyPos_isOk_iff,
        ← MotionCommand.bodyQuat_isOk_iff]
      simp only [Bool.not_false, hb, decide_true, Bool.and_self,
        Int.natCast_nonneg, if_true, bind_eq_ok_iff, forall_const]
      constructor
      · rintro ⟨b, p, hp, r, hr, -⟩
        exact ⟨⟨p, hp⟩, ⟨r, hr⟩⟩
      · rintro ⟨⟨p, hp⟩, ⟨r, hr⟩⟩
        exact ⟨_, p, hp, r, hr, rfl⟩

/-- Block 2 from the anchor's pose in the motion: the pose is aligned
and then taken relative to the robot's. -/
def poseBlock (cfg : BeyondMimicConfig F) (align : TransformAlignment F)
    (imuQuat : Quat F) (pos : Vec3 F) (quat : Quat F) : List F :=
  let pos := align.alignPos pos
  let rel := subtractFrameTransforms
    (if cfg.overrideRobotAnchorPos then pos else Vec3.zero) imuQuat pos
    (align.alignQuat quat)
  let mat := matrixFromQuat rel.2
  (if cfg.withoutStateEstimator then []
    else [rel.1.x, rel.1.y, rel.1.z])
  ++ [mat.row0.x, mat.row0.y, mat.row1.x, mat.row1.y, mat.row2.x,
    mat.row2.y]

omit [Eigen F] in
/-- Block 2 without a pose. -/
def noPoseBlock (cfg : BeyondMimicConfig F) : List F :=
  (if cfg.withoutStateEstimator then [] else List.replicate 3 0)
    ++ List.replicate 6 0

theorem anchorBlock_pose {dc : DataConverter F} {q quat : Quat F}
    {pos : Vec3 F} (he : dc.command.empty = false)
    (hb : 0 < dc.cfg.numBodies) (hi : 0 ≤ dc.cfg.anchorBodyIndex)
    (hp : dc.command.bodyPos dc.cfg.anchorBodyIndex = .ok pos)
    (hq : dc.command.bodyQuat dc.cfg.anchorBodyIndex = .ok quat) :
    dc.anchorBlock q = .ok (poseBlock dc.cfg dc.initAlign q pos quat) := by
  unfold anchorBlock
  rw [he, hp, hq]
  simp only [hb, hi, decide_true, Bool.not_false, Bool.and_self, if_true]
  rfl

theorem anchorBlock_noPose {dc : DataConverter F} {q : Quat F}
    (h : dc.command.empty = true ∨ dc.cfg.numBodies = 0) :
    dc.anchorBlock q = .ok (noPoseBlock dc.cfg) := by
  unfold anchorBlock
  rcases h with h | h
  · simp only [h, Bool.not_true, Bool.false_and, Bool.false_eq_true,
      if_false]
    rfl
  · simp only [h, Nat.lt_irrefl, decide_false, Bool.and_false,
      Bool.false_and, Bool.false_eq_true, if_false]
    rfl

theorem anchorBlock_length {dc : DataConverter F} {q : Quat F}
    {b : List F} (h : dc.anchorBlock q = .ok b) :
    b.length = dc.anchorLen := by
  unfold anchorLen
  unfold anchorBlock at h
  split at h
  · simp only [bind_eq_ok_iff] at h
    obtain ⟨p, -, r, -, h⟩ := h
    cases h
    cases dc.cfg.withoutStateEstimator <;> rfl
  · cases h
    cases dc.cfg.withoutStateEstimator <;> rfl

/-- Block 2 can only run out of the command's body vectors. -/
theorem anchorBlock_error {dc : DataConverter F} {q : Quat F} {e : Fault}
    (h : dc.anchorBlock q = .error e) :
    e = .index .bodyPosW ∨ e = .index .bodyQuatW := by
  unfold anchorBlock at h
  split at h
  · rcases bind_eq_error_iff.mp h with h | ⟨_, -, h⟩
    · exact Or.inl (MotionCommand.bodyPos_error h)
    · rcases bind_eq_error_iff.mp h with h | ⟨_, -, h⟩
      · exact Or.inr (MotionCommand.bodyQuat_error h)
      · cases h
  · cases h

-- ==================================================== buildObservation

/-- `buildObservation`, on members it can read: the blocks in order. -/
theorem buildObservation_eq {dc : DataConverter F} (h : dc.Observable)
    (w : Vec3 F) (q : Quat F) (names : List String) (pos vel : List D) :
    ∃ anchor, dc.anchorBlock q = .ok anchor ∧
      dc.buildObservation w q names pos vel
        = .ok (dc.refPos ++ dc.refVel ++ anchor ++ [w.x, w.y, w.z]
            ++ dc.posBlock names pos ++ dc.velBlock names vel
            ++ dc.lastBlock) := by
  obtain ⟨anchor, hanchor⟩ := anchorBlock_isOk_iff.mpr h.anchor
  refine ⟨anchor, hanchor, ?_⟩
  have hfit : ∀ data : List D,
      dc.numDof ≤ (dc.robot2model.fitted
        (dc.controlledVals names data)).length := by
    intro data
    rw [DoFAdapter.fitted_length]
    exact h.tarLen
  unfold buildObservation
  rw [DoFAdapter.fit_eq, DoFAdapter.fit_eq, commandBlock_eq h.command,
    hanchor]
  simp only [ok_bind]
  rw [tabulate_read₂ _ _ _ (hfit pos) h.default, tabulate_read _ (hfit vel),
    tabulate_read _ h.last]
  rfl

theorem buildObservation_isOk_iff {dc : DataConverter F} {w : Vec3 F}
    {q : Quat F} {names : List String} {pos vel : List D} :
    (∃ obs, dc.buildObservation w q names pos vel = .ok obs)
      ↔ dc.Observable := by
  constructor
  · rintro ⟨obs, h⟩
    unfold buildObservation at h
    rw [DoFAdapter.fit_eq, DoFAdapter.fit_eq] at h
    simp only [ok_bind, bind_eq_ok_iff] at h
    obtain ⟨cb, hcb, ab, hab, rp, hrp, v, -, l, hl, -⟩ := h
    have hrp' := tabulate_read₂_isOk_iff.mp ⟨rp, hrp⟩
    rw [DoFAdapter.fitted_length] at hrp'
    exact ⟨hrp'.1, hrp'.2, tabulate_read_isOk_iff.mp ⟨l, hl⟩,
      commandBlock_isOk_iff.mp ⟨cb, hcb⟩, anchorBlock_isOk_iff.mp ⟨ab, hab⟩⟩
  · intro h
    obtain ⟨_, -, hobs⟩ := buildObservation_eq h w q names pos vel
    exact ⟨_, hobs⟩

/-- The vectors `buildObservation` can run out of: the motion command's,
or a member that does not reach the joint count. -/
theorem buildObservation_fault {dc : DataConverter F} {w : Vec3 F}
    {q : Quat F} {names : List String} {pos vel : List D} {e : Fault}
    (h : dc.buildObservation w q names pos vel = .error e) :
    (e = .index .jointPos ∨ e = .index .jointVel ∨ e = .index .bodyPosW
        ∨ e = .index .bodyQuatW)
      ∨ ((e = .index .dofPosModel ∨ e = .index .dofVelModel)
        ∧ dc.robot2model.tarLen < dc.numDof)
      ∨ (e = .index .defaultDofPos
        ∧ dc.cfg.defaultDofPos.length < dc.numDof)
      ∨ (e = .index .lastAction ∧ dc.lastAction.length < dc.numDof) := by
  unfold buildObservation at h
  rw [DoFAdapter.fit_eq, DoFAdapter.fit_eq] at h
  simp only [ok_bind] at h
  rcases bind_eq_error_iff.mp h with h | ⟨_, -, h⟩
  · left
    rcases commandBlock_error h with h | h
    · exact Or.inl h
    · exact Or.inr (Or.inl h)
  rcases bind_eq_error_iff.mp h with h | ⟨_, -, h⟩
  · exact Or.inl (Or.inr (Or.inr (anchorBlock_error h)))
  rcases bind_eq_error_iff.mp h with h | ⟨_, -, h⟩
  · rcases tabulate_read₂_error h with ⟨hv, hlt⟩ | ⟨hv, hlt⟩
    · rw [DoFAdapter.fitted_length] at hlt
      exact Or.inr (Or.inl ⟨Or.inl hv.symm, hlt⟩)
    · exact Or.inr (Or.inr (Or.inl ⟨hv.symm, hlt⟩))
  rcases bind_eq_error_iff.mp h with h | ⟨_, -, h⟩
  · obtain ⟨hv, hlt⟩ := tabulate_read_error h
    rw [DoFAdapter.fitted_length] at hlt
    exact Or.inr (Or.inl ⟨Or.inr hv.symm, hlt⟩)
  rcases bind_eq_error_iff.mp h with h | ⟨_, -, h⟩
  · obtain ⟨hv, hlt⟩ := tabulate_read_error h
    exact Or.inr (Or.inr (Or.inr ⟨hv.symm, hlt⟩))
  · cases h

/-- With the other members in order, `buildObservation` can only run out
of the motion command's vectors. -/
theorem buildObservation_error {dc : DataConverter F} {w : Vec3 F}
    {q : Quat F} {names : List String} {pos vel : List D} {e : Fault}
    (htar : dc.numDof ≤ dc.robot2model.tarLen)
    (hdef : dc.numDof ≤ dc.cfg.defaultDofPos.length)
    (hlast : dc.numDof ≤ dc.lastAction.length)
    (h : dc.buildObservation w q names pos vel = .error e) :
    e = .index .jointPos ∨ e = .index .jointVel ∨ e = .index .bodyPosW
      ∨ e = .index .bodyQuatW := by
  rcases buildObservation_fault h with h | ⟨-, hlt⟩ | ⟨-, hlt⟩ | ⟨-, hlt⟩
  · exact h
  · omega
  · omega
  · omega

end Anchor

-- -------------------------------------------------- the blocks' sizes

/-- Both halves of block 1: zeros, or the prefix of a vector that is long
enough. -/
theorem length_zerosOrTake {n : Nat} {e : Bool} {xs : List F}
    (h : e = true ∨ n ≤ xs.length) :
    (if e then List.replicate n 0 else xs.take n).length = n := by
  split
  next => exact List.length_replicate
  next he =>
    rcases h with h | hle
    · exact absurd h he
    · rw [List.length_take, Nat.min_eq_left hle]

theorem refPos_length {dc : DataConverter F} (h : dc.CommandReadable) :
    dc.refPos.length = dc.numDof :=
  length_zerosOrTake (h.imp_right And.left)

theorem refVel_length {dc : DataConverter F} (h : dc.CommandReadable) :
    dc.refVel.length = dc.numDof :=
  length_zerosOrTake (h.imp_right And.right)

theorem posBlock_length {dc : DataConverter F}
    (htar : dc.numDof ≤ dc.robot2model.tarLen)
    (hdef : dc.numDof ≤ dc.cfg.defaultDofPos.length)
    (names : List String) (pos : List D) :
    (dc.posBlock names pos).length = dc.numDof := by
  unfold posBlock
  rw [List.length_zipWith, List.length_take, List.length_take,
    DoFAdapter.fitted_length, Nat.min_eq_left htar, Nat.min_eq_left hdef,
    Nat.min_self]

theorem velBlock_length {dc : DataConverter F}
    (htar : dc.numDof ≤ dc.robot2model.tarLen)
    (names : List String) (vel : List D) :
    (dc.velBlock names vel).length = dc.numDof := by
  unfold velBlock
  rw [List.length_take, DoFAdapter.fitted_length, Nat.min_eq_left htar]

theorem lastBlock_length {dc : DataConverter F}
    (h : dc.numDof ≤ dc.lastAction.length) :
    dc.lastBlock.length = dc.numDof := by
  unfold lastBlock
  rw [List.length_take, Nat.min_eq_left h]

/-- An observation has five values a joint, the anchor block and the
angular velocity. -/
theorem buildObservation_length [Eigen F] {dc : DataConverter F}
    {w : Vec3 F} {q : Quat F} {names : List String} {pos vel : List D}
    {obs : List F} (h : dc.buildObservation w q names pos vel = .ok obs) :
    obs.length = 5 * dc.numDof + 3 + dc.anchorLen := by
  have hobs := buildObservation_isOk_iff.mp ⟨obs, h⟩
  obtain ⟨anchor, hanchor, heq⟩ :=
    buildObservation_eq hobs w q names pos vel
  rw [heq] at h
  cases h
  simp only [List.length_append, refPos_length hobs.command,
    refVel_length hobs.command, anchorBlock_length hanchor,
    posBlock_length hobs.tarLen hobs.default,
    velBlock_length hobs.tarLen, lastBlock_length hobs.last,
    List.length_cons, List.length_nil]
  omega

-- ======================================================= processAction

/-- The smoothed action: the value `processAction` remembers. -/
def smoothed (dc : DataConverter F) (raw : List F) : List F :=
  List.zipWith
    (fun l r => (1 - dc.cfg.actionBeta) * l + dc.cfg.actionBeta * r)
    (dc.lastAction.take dc.numDof) (raw.take dc.numDof)

/-- The clipped and scaled action: the value `processAction` returns. -/
def scaled (dc : DataConverter F) (raw : List F) : List F :=
  List.zipWith
    (fun a k => clamp a (-dc.cfg.clipActions) dc.cfg.clipActions * k)
    (dc.smoothed raw) (dc.cfg.actionScales.take dc.numDof)

theorem smoothed_length {dc : DataConverter F} {raw : List F}
    (hlast : dc.numDof ≤ dc.lastAction.length)
    (hraw : dc.numDof ≤ raw.length) :
    (dc.smoothed raw).length = dc.numDof := by
  unfold smoothed
  rw [List.length_zipWith, List.length_take, List.length_take,
    Nat.min_eq_left hlast, Nat.min_eq_left hraw, Nat.min_self]

theorem scaled_length {dc : DataConverter F} {raw : List F}
    (hlast : dc.numDof ≤ dc.lastAction.length)
    (hraw : dc.numDof ≤ raw.length)
    (hscale : dc.numDof ≤ dc.cfg.actionScales.length) :
    (dc.scaled raw).length = dc.numDof := by
  unfold scaled
  rw [List.length_zipWith, smoothed_length hlast hraw, List.length_take,
    Nat.min_eq_left hscale, Nat.min_self]

theorem processAction_eq {dc : DataConverter F} {raw : List F}
    (hlast : dc.numDof ≤ dc.lastAction.length)
    (hraw : dc.numDof ≤ raw.length)
    (hscale : dc.numDof ≤ dc.cfg.actionScales.length) :
    dc.processAction raw
      = .ok ({ dc with lastAction := dc.smoothed raw }, dc.scaled raw) := by
  have hsmooth : dc.smooth raw = .ok (dc.smoothed raw) := by
    unfold smooth
    rw [tabulate_read₂ _ _ _ hlast hraw]
    rfl
  have hlen := smoothed_length hlast hraw
  unfold processAction
  rw [hsmooth]
  simp only [ok_bind]
  rw [tabulate_read₂ _ _ _ (by omega) hscale,
    List.take_of_length_le (by omega)]
  rfl

theorem processAction_isOk_iff {dc : DataConverter F} {raw : List F} :
    (∃ r, dc.processAction raw = .ok r)
      ↔ dc.numDof ≤ dc.lastAction.length ∧ dc.numDof ≤ raw.length
        ∧ dc.numDof ≤ dc.cfg.actionScales.length := by
  constructor
  · rintro ⟨r, h⟩
    unfold processAction smooth at h
    simp only [bind_eq_ok_iff] at h
    obtain ⟨s, hs, k, hk, -⟩ := h
    have hs' := tabulate_read₂_isOk_iff.mp ⟨s, hs⟩
    have hk' := tabulate_read₂_isOk_iff.mp ⟨k, hk⟩
    exact ⟨hs'.1, hs'.2, hk'.2⟩
  · rintro ⟨hlast, hraw, hscale⟩
    exact ⟨_, processAction_eq hlast hraw hscale⟩

/-- The vectors `processAction` can run out of. -/
theorem processAction_fault {dc : DataConverter F} {raw : List F}
    {e : Fault} (h : dc.processAction raw = .error e) :
    e = .index .rawAction
      ∨ (e = .index .lastAction ∧ dc.lastAction.length < dc.numDof)
      ∨ (e = .index .actionScales
        ∧ dc.cfg.actionScales.length < dc.numDof) := by
  unfold processAction at h
  rcases bind_eq_error_iff.mp h with h | ⟨smoothed, hs, h⟩
  · rcases tabulate_read₂_error h with ⟨hv, hlt⟩ | ⟨hv, -⟩
    · exact Or.inr (Or.inl ⟨hv.symm, hlt⟩)
    · exact Or.inl hv.symm
  · rcases bind_eq_error_iff.mp h with h | ⟨_, -, h⟩
    · rcases tabulate_read₂_error h with ⟨-, hlt⟩ | ⟨hv, hlt⟩
      · rw [tabulate_length hs] at hlt
        omega
      · exact Or.inr (Or.inr ⟨hv.symm, hlt⟩)
    · cases h

/-- What a `processAction` that returned did. -/
theorem processAction_ok {dc dc' : DataConverter F}
    {raw action : List F} (h : dc.processAction raw = .ok (dc', action)) :
    dc' = { dc with lastAction := dc.smoothed raw }
      ∧ action = dc.scaled raw
      ∧ (dc.smoothed raw).length = dc.numDof := by
  obtain ⟨hlast, hraw, hscale⟩ := processAction_isOk_iff.mp ⟨_, h⟩
  rw [processAction_eq hlast hraw hscale] at h
  cases h
  exact ⟨rfl, rfl, smoothed_length hlast hraw⟩

-- ===================================================== computePdTarget

/-- The targets in model order. -/
def targets (dc : DataConverter F) (action : List F) : List F :=
  if dc.cfg.useResidualAction && !dc.command.empty then
    List.zipWith (fun s p => s + p) (action.take dc.numDof)
      (dc.command.jointPos.take dc.numDof)
  else
    List.zipWith (fun d s => d + s) (dc.cfg.defaultDofPos.take dc.numDof)
      (action.take dc.numDof)

theorem targetModel_eq {dc : DataConverter F} {action : List F}
    (hdef : dc.numDof ≤ dc.cfg.defaultDofPos.length)
    (hcmd : dc.CommandReadable) (hact : dc.numDof ≤ action.length) :
    dc.targetModel action = .ok (dc.targets action) := by
  unfold targetModel targets
  cases hres : dc.cfg.useResidualAction && !dc.command.empty with
  | true =>
      rcases hcmd with he | ⟨hpos, -⟩
      · simp [he] at hres
      · exact tabulate_read₂ _ _ _ hact hpos
  | false => exact tabulate_read₂ _ _ _ hdef hact

theorem targets_length {dc : DataConverter F} {action : List F}
    (hdef : dc.numDof ≤ dc.cfg.defaultDofPos.length)
    (hcmd : dc.CommandReadable) (hact : dc.numDof ≤ action.length) :
    (dc.targets action).length = dc.numDof := by
  unfold targets
  split
  next hres =>
    rcases hcmd with he | ⟨hpos, -⟩
    · simp [he] at hres
    · rw [List.length_zipWith, List.length_take, List.length_take,
        Nat.min_eq_left hact, Nat.min_eq_left hpos, Nat.min_self]
  next =>
    rw [List.length_zipWith, List.length_take, List.length_take,
      Nat.min_eq_left hact, Nat.min_eq_left hdef, Nat.min_self]

theorem computePdTarget_eq {dc : DataConverter F} {action : List F}
    (hdef : dc.numDof ≤ dc.cfg.defaultDofPos.length)
    (hcmd : dc.CommandReadable) (hact : dc.numDof ≤ action.length) :
    dc.computePdTarget action
      = .ok (if dc.cfg.robotJointNames.isEmpty then dc.targets action
          else dc.model2robot.fitted (dc.targets action)) := by
  unfold computePdTarget
  rw [targetModel_eq hdef hcmd hact]
  simp only [ok_bind]
  split
  · rfl
  · exact DoFAdapter.fit_eq ..

/-- The vectors `computePdTarget` can run out of. -/
theorem computePdTarget_fault {dc : DataConverter F} {action : List F}
    {e : Fault} (h : dc.computePdTarget action = .error e) :
    e = .index .scaledAction ∨ e = .index .jointPos
      ∨ (e = .index .defaultDofPos
        ∧ dc.cfg.defaultDofPos.length < dc.numDof) := by
  unfold computePdTarget at h
  rcases bind_eq_error_iff.mp h with h | ⟨target, -, h⟩
  · unfold targetModel at h
    split at h
    · rcases tabulate_read₂_error h with ⟨hv, -⟩ | ⟨hv, -⟩
      · exact Or.inl hv.symm
      · exact Or.inr (Or.inl hv.symm)
    · rcases tabulate_read₂_error h with ⟨hv, hlt⟩ | ⟨hv, -⟩
      · exact Or.inr (Or.inr ⟨hv.symm, hlt⟩)
      · exact Or.inl hv.symm
  · split at h
    · cases h
    · rw [DoFAdapter.fit_eq] at h
      cases h

end DataConverter

end RlDeploy
