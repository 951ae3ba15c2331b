/-
Which body's pose the motion is aligned to and tracked by.

The configuration names an anchor body, and `setAnchorBodyIndex` turns
the name into an index once. Two places use the index later, under two
guards: the dry run aligns to the pose there when the motion has body
positions, and the anchor block of each observation is built from the
pose there when the index is not negative. The second guard is for the
name that no body has. The search never leaves a negative index,
though: it falls back to `0`, so that body 0 takes the place of the
missing one.

`anchorPose` says what the two are for: the pose of the first body with
the anchor's name, and none when no body has it. `Named` states that
alignment and anchor block of a state are the ones of that pose. It
holds along every run in which the search finds the name, or there is
no pose to take instead (`anchor_named`).
-/
import RlDeploy.Node.Proofs.Memory
import RlDeploy.Converter.Proofs.Layout

namespace RlDeploy

open Lib

variable {F D : Type} [Scalar F D] [Eigen F]

-- ============================================================= the pose

omit [Scalar F D] [Eigen F] in
/-- The pose of the anchor body in a motion: the first body of its name,
when there is one and the motion is not empty. -/
def anchorPose (cfg : BeyondMimicConfig F) (c : MotionCommand F) :
    Option (Vec3 F × Quat F) :=
  if c.empty then none
  else do
    let k ← cfg.bodyNames.idxOf? cfg.anchorBodyName
    let pos ← (c.bodyPos k).toOption
    let quat ← (c.bodyQuat k).toOption
    return (pos, quat)

/-- The alignment to the anchor's pose, and the identity without it. -/
def poseAlignment (pose : Option (Vec3 F × Quat F)) :
    TransformAlignment F :=
  match pose with
  | some (pos, quat) => TransformAlignment.setBase quat pos true true
  | none => TransformAlignment.init

/-- The anchor block of a pose, and all zeros without it. -/
def trackingBlock (cfg : BeyondMimicConfig F)
    (align : TransformAlignment F) (imuQuat : Quat F)
    (pose : Option (Vec3 F × Quat F)) : List F :=
  match pose with
  | some (pos, quat) =>
      DataConverter.poseBlock cfg align imuQuat pos quat
  | none => DataConverter.noPoseBlock cfg

variable {cfg : BeyondMimicConfig F} {c : MotionCommand F}

omit [Scalar F D] [Eigen F] in
/-- A motion has no pose of a name that no body has. -/
theorem anchorPose_of_not_mem (hname : cfg.anchorBodyName ∉ cfg.bodyNames) :
    anchorPose cfg c = none := by
  unfold anchorPose
  rw [List.idxOf?_eq_none_iff.mpr hname]
  split <;> rfl

omit [Scalar F D] [Eigen F] in
theorem anchorPose_of_empty (he : c.empty = true) :
    anchorPose cfg c = none := by
  unfold anchorPose
  rw [if_pos he]

-- ======================================================= the two users

omit [Scalar F D] [Eigen F] in
/-- When a body has the anchor's name, the index is the first one's. -/
theorem setAnchorBodyIndex_found {k : Nat}
    (hk : cfg.bodyNames.idxOf? cfg.anchorBodyName = some k) :
    cfg.setAnchorBodyIndex = { cfg with anchorBodyIndex := k } := by
  unfold BeyondMimicConfig.setAnchorBodyIndex
  unfold List.idxOf? at hk
  rw [hk]

omit [Scalar F D] [Eigen F] in
/-- The index of a name that is there. -/
theorem exists_anchorIndex (h : cfg.anchorBodyName ∈ cfg.bodyNames) :
    ∃ k : Nat, cfg.bodyNames.idxOf? cfg.anchorBodyName = some k
      ∧ cfg.setAnchorBodyIndex = { cfg with anchorBodyIndex := k }
      ∧ cfg.numBodies ≠ 0 := by
  obtain ⟨k, hk⟩ := Option.isSome_iff_exists.mp
    (List.isSome_idxOf?.mpr h)
  refine ⟨k, hk, setAnchorBodyIndex_found hk, ?_⟩
  exact Nat.ne_of_gt (List.length_pos_of_mem h)

/-- The dry run aligns to the anchor's pose, when the name is found or
there is nothing to align to. -/
theorem anchorAlignment_eq (h : cfg.anchorBodyName ∈ cfg.bodyNames
      ∨ cfg.bodyNames = [] ∨ c.empty = true) :
    anchorAlignment cfg.setAnchorBodyIndex TransformAlignment.init c
      = poseAlignment (anchorPose cfg c) := by
  by_cases he : c.empty = true
  case pos =>
    rw [anchorPose_of_empty he]
    unfold anchorAlignment
    rw [he]
    rfl
  by_cases hname : cfg.anchorBodyName ∈ cfg.bodyNames
  case neg =>
    have hnil : cfg.bodyNames = [] := by
      rcases h with h | h | h
      · exact absurd h hname
      · exact h
      · exact absurd h he
    have hzero : cfg.setAnchorBodyIndex.numBodies = 0 := by
      rw [BeyondMimicConfig.setAnchorBodyIndex_numBodies]
      exact congrArg List.length hnil
    rw [anchorPose_of_not_mem hname]
    unfold anchorAlignment
    rw [if_pos (by simp [hzero])]
    rfl
  obtain ⟨k, hk, hset, hne⟩ := exists_anchorIndex hname
  have hbodies : (BeyondMimicConfig.numBodies
      { cfg with anchorBodyIndex := (k : Int) }) ≠ 0 := hne
  unfold anchorAlignment anchorPose
  rw [hset, if_neg (by simp [he, hbodies]), if_neg he, hk]
  dsimp only
  cases hp : c.bodyPos k with
  | error e => simp [hp, Except.toOption, poseAlignment]
  | ok pos =>
      cases hq : c.bodyQuat k with
      | error e => simp [hp, hq, Except.toOption, poseAlignment]
      | ok quat => simp [hp, hq, Except.toOption, poseAlignment]

/-- So does every anchor block that is built. -/
theorem anchorBlock_eq {dc : DataConverter F}
    (hcfg : dc.cfg = cfg.setAnchorBodyIndex)
    (h : cfg.anchorBodyName ∈ cfg.bodyNames ∨ cfg.bodyNames = []
      ∨ dc.command.empty = true) {q : Quat F} {b : List F}
    (hb : dc.anchorBlock q = .ok b) :
    b = trackingBlock cfg dc.initAlign q (anchorPose cfg dc.command) := by
  have hnone : DataConverter.noPoseBlock dc.cfg
      = DataConverter.noPoseBlock cfg := by
    obtain ⟨k, hk, -⟩ := cfg.setAnchorBodyIndex_eq
    rw [hcfg, hk]
    rfl
  by_cases he : dc.command.empty = true
  case pos =>
    rw [DataConverter.anchorBlock_noPose (Or.inl he), hnone] at hb
    cases hb
    rw [anchorPose_of_empty he]
    rfl
  by_cases hname : cfg.anchorBodyName ∈ cfg.bodyNames
  case neg =>
    have hnil : cfg.bodyNames = [] := by
      rcases h with h | h | h
      · exact absurd h hname
      · exact h
      · exact absurd h he
    have hzero : dc.cfg.numBodies = 0 := by
      rw [hcfg, BeyondMimicConfig.setAnchorBodyIndex_numBodies]
      exact congrArg List.length hnil
    rw [DataConverter.anchorBlock_noPose (Or.inr hzero), hnone] at hb
    cases hb
    rw [anchorPose_of_not_mem hname]
    rfl
  obtain ⟨k, hk, hset, hne⟩ := exists_anchorIndex hname
  have hcfg' := hcfg.trans hset
  have hidx : dc.cfg.anchorBodyIndex = (k : Int) := by rw [hcfg']
  have hbodies : 0 < dc.cfg.numBodies := by
    rw [hcfg']
    exact Nat.pos_of_ne_zero hne
  have he' : dc.command.empty = false := by simpa using he
  have hread := DataConverter.anchorBlock_isOk_iff.mp ⟨b, hb⟩ he' hbodies
    (by rw [hidx]; exact Int.natCast_nonneg k)
  rw [hidx, Int.toNat_natCast] at hread
  obtain ⟨pos, hpos⟩ := MotionCommand.bodyPos_isOk_iff.mpr hread.1
  obtain ⟨quat, hquat⟩ := MotionCommand.bodyQuat_isOk_iff.mpr hread.2
  rw [DataConverter.anchorBlock_pose he' hbodies
    (by rw [hidx]; exact Int.natCast_nonneg k) (by rw [hidx]; exact hpos)
    (by rw [hidx]; exact hquat)] at hb
  cases hb
  have hpose : anchorPose cfg dc.command = some (pos, quat) := by
    unfold anchorPose
    simp [he', hk, hpos, hquat, Except.toOption]
  rw [hpose, hcfg']
  rfl

-- ============================================================= the runs

namespace RLControllerNode

open RlDeploy.Sequential

omit [Scalar F D] [Eigen F] in
/-- Without a motion among the results there is no motion command. -/
theorem motionCommand_empty {rs : List (InferenceResult F)}
    (h : ∀ r ∈ rs, r.motion.empty = true) :
    (motionCommand rs).empty = true := by
  unfold motionCommand
  have hnil : (rs.map InferenceResult.motion).filter
      (fun c => !c.empty) = [] := by
    rw [List.filter_eq_nil_iff]
    intro c hc
    obtain ⟨r, hr, rfl⟩ := List.mem_map.mp hc
    rw [h r hr]
    simp
  rw [hnil]
  rfl

/-- A state whose alignment and whose every possible anchor block are
the ones of the named body: of its pose in the dry run, and in the last
motion. -/
structure Named (cfg : BeyondMimicConfig F)
    (rs : List (InferenceResult F)) (n : RLControllerNode F D) :
    Prop where
  align : n.converter.initAlign
    = poseAlignment (rs.head?.bind fun dry => anchorPose cfg dry.motion)
  block : ∀ (w : Vec3 F) (q : Quat F) (names : List String)
    (pos vel : List D) (obs : List F),
    n.converter.buildObservation w q names pos vel = .ok obs →
    DataConverter.block obs (2 * cfg.numDof) n.converter.anchorLen
      = trackingBlock cfg n.converter.initAlign q
          (anchorPose cfg (motionCommand rs))

/-- In every run in which a body has the anchor's name, or there are no
bodies, or no motion was output, every state uses the named body's pose
and no other. -/
theorem anchor_named {f : List F → Int → InferenceResult F}
    {obsSize : Nat} {s m : Int} {evs : List (Event D)}
    {n : RLControllerNode F D}
    (hrun : (run (Policy.ofFun obsSize f) (start cfg s m) evs).out
      = .ok n)
    (h : cfg.anchorBodyName ∈ cfg.bodyNames ∨ cfg.bodyNames = []
      ∨ ∀ r ∈ answers f (run (Policy.ofFun obsSize f)
          (start cfg s m) evs).log, r.motion.empty = true) :
    Named cfg (answers f (run (Policy.ofFun obsSize f)
      (start cfg s m) evs).log) n := by
  have hconv := (remembers_run hrun).converter
  generalize answers f (run (Policy.ofFun obsSize f)
    (start cfg s m) evs).log = rs at h hconv ⊢
  have hset := run_setup hrun
  have hcfg : n.converter.cfg = cfg.setAnchorBodyIndex :=
    hset.cfg.trans (DataConverter.configure_cfg _ _)
  refine ⟨?_, ?_⟩
  · rw [hconv]
    cases rs with
    | nil => rfl
    | cons dry rs =>
        show anchorAlignment cfg.setAnchorBodyIndex _ dry.motion
          = poseAlignment (anchorPose cfg dry.motion)
        apply anchorAlignment_eq
        exact h.imp_right (Or.imp_right fun hr => hr dry (by simp))
  · intro w q names pos vel obs hobs
    have hread := DataConverter.buildObservation_isOk_iff.mp ⟨obs, hobs⟩
    obtain ⟨b, hb⟩ := DataConverter.anchorBlock_isOk_iff.mpr hread.anchor
    have hcmd : n.converter.command = motionCommand rs := by
      rw [hconv]
      rfl
    have hblock := anchorBlock_eq hcfg (by
      rw [hcmd]
      exact h.imp_right (Or.imp_right motionCommand_empty)) hb
    rw [hcmd] at hblock
    rw [← hblock, ← hset.joints]
    exact DataConverter.block_anchor hobs hb

-- =============================================== a concrete instance

/-- A body that is not at the origin, for `crossed`. -/
def drifted : InferenceResult ℚ :=
  { fullResult with bodyPosW := [1, 0, 0] }

theorem drifted_wellSized :
    drifted.WellSized DataConverter.crossed.numDof
      DataConverter.crossed.numBodies :=
  ⟨rfl, Or.inr ⟨rfl, rfl, rfl, rfl⟩⟩

theorem anchor_named_crossed :
    ∃ n, (run (Policy.ofFun 19 fun _ _ => drifted)
        (start DataConverter.crossed 3 (-1)) twoReady).out = .ok n
      ∧ Named DataConverter.crossed (answers (fun _ _ => drifted)
        (run (Policy.ofFun 19 fun _ _ => drifted)
          (start DataConverter.crossed 3 (-1)) twoReady).log) n := by
  have hnet : (Policy.ofFun 19 fun _ _ => drifted).WellSized
      DataConverter.crossed.numDof DataConverter.crossed.numBodies :=
    fun _ _ => ⟨_, rfl, drifted_wellSized⟩
  obtain ⟨n, hrun, -⟩ := run_ok crossed_runnable hnet 3 (-1) twoReady
  exact ⟨n, hrun, anchor_named hrun (Or.inl (by decide))⟩

/-- `crossed`, with an anchor that is no body's name. -/
def stray : BeyondMimicConfig ℚ :=
  { DataConverter.crossed with anchorBodyName := "torso" }

/-- On `stray` the dry run aligns to the only body, and the anchor block
of the observation is its pose. -/
theorem stray_anchor :
    stray.anchorBodyName ∉ stray.bodyNames
      ∧ drifted.WellSized stray.numDof stray.numBodies
      ∧ ((run (Policy.ofFun 19 fun _ _ => drifted) (start stray 3 (-1))
          twoReady).out.map fun n => n.converter.initAlign)
        = .ok ⟨⟨1, 0, 0, 0⟩, ⟨1, 0, 0⟩, true, true⟩
      ∧ TransformAlignment.init (F := ℚ)
        ≠ ⟨⟨1, 0, 0, 0⟩, ⟨1, 0, 0⟩, true, true⟩
      ∧ (asked (run (Policy.ofFun 19 fun _ _ => drifted)
          (start stray 3 (-1)) twoReady).log).map
            (fun q => DataConverter.block q.1 4 6)
        = [[0, 0, 0, 0, 0, 0], [1, 0, 0, 1, 0, 0]] := by
  refine ⟨by decide, drifted_wellSized, ?_, by decide +kernel, ?_⟩
  · decide +kernel
  · decide +kernel

end RLControllerNode

end RlDeploy
