/-
The orientation block: the six values `buildObservation` writes for the
anchor's orientation relative to the robot's.

They are two columns of the matrix of `inverse(imu) * inverse(base) *
anchor` (`Writes.eq`), whatever the norms. What they say depends on
these.

# At unit norm

The columns are orthonormal, the third one is their cross product, and
the six values determine the relative rotation. That two columns are
enough is `columns_eq_iff`; here it is only read at the observation of
two states.

# At any norm

The source does not normalise: neither the IMU's quaternion, nor the
model's, nor their quotient before it becomes a matrix. Eigen's inverse
divides by the squared norm, so the relative quaternion has the norm of
the anchor's over that of the IMU's, and the matrix takes it squared.
Factors on the two cancel where they are the same up to sign, and
elsewhere only at a relative quaternion without imaginary part.
-/
import RlDeploy.Converter.Proofs.Layout
import RlDeploy.Geometry

namespace RlDeploy

open Lib Quaternion Matrix

namespace DataConverter

/-- The first two columns of a matrix, by rows. -/
def columns {K : Type} (M : Matrix (Fin 3) (Fin 3) K) : List K :=
  [M 0 0, M 0 1, M 1 0, M 1 1, M 2 0, M 2 1]

theorem columns_inj {K : Type} {M N : Matrix (Fin 3) (Fin 3) K} :
    columns M = columns N
      ↔ M.col 0 = N.col 0 ∧ M.col 1 = N.col 1 := by
  unfold columns
  simp only [List.cons.injEq, and_true]
  constructor
  · rintro ⟨h00, h01, h10, h11, h20, h21⟩
    constructor
    · ext i
      fin_cases i
      · exact h00
      · exact h10
      · exact h20
    · ext i
      fin_cases i
      · exact h01
      · exact h11
      · exact h21
  · rintro ⟨h₀, h₁⟩
    exact ⟨congrFun h₀ 0, congrFun h₁ 0, congrFun h₀ 1, congrFun h₁ 1,
      congrFun h₀ 2, congrFun h₁ 2⟩

-- ====================================================== what is written

/-- In an observation, the six values before the angular velocity are
the last six of the anchor block. -/
theorem block_orientation {F D : Type} [Scalar F D] [Eigen F]
    {dc : DataConverter F} {w : Vec3 F} {q : Quat F}
    {names : List String} {pos vel : List D} {obs anchor : List F}
    (h : dc.buildObservation w q names pos vel = .ok obs)
    (ha : dc.anchorBlock q = .ok anchor) :
    block obs (dc.anchorEnd - 6) 6 = anchor.drop (dc.anchorLen - 6) := by
  have h6 : 6 ≤ dc.anchorLen := by unfold anchorLen; split <;> omega
  have hstart : 2 * dc.numDof + (dc.anchorLen - 6) = dc.anchorEnd - 6 := by
    unfold anchorEnd
    omega
  have hlen : dc.anchorLen - (dc.anchorLen - 6) = 6 := by omega
  rw [← block_anchor h ha]
  unfold block
  rw [List.drop_take, List.drop_drop, hstart, hlen]

/-- The anchor block of a pose ends with the two columns of its relative
orientation. -/
theorem poseBlock_drop {F D : Type} [Scalar F D] [Eigen F]
    (dc : DataConverter F) (q : Quat F) (pos : Vec3 F) (quat : Quat F) :
    (poseBlock dc.cfg dc.initAlign q pos quat).drop (dc.anchorLen - 6)
      = let m := Eigen.toRotationMatrix (Eigen.mul (Eigen.inverse q)
          (dc.initAlign.alignQuat quat))
        [m.row0.x, m.row0.y, m.row1.x, m.row1.y, m.row2.x, m.row2.y] := by
  unfold poseBlock anchorLen
  cases dc.cfg.withoutStateEstimator <;> rfl

section

variable [Eigen ℝ]

/-- A state of a configured converter, with a motion command and bodies,
at which `buildObservation` writes `six` as the orientation of the
anchor body, whose pose has the quaternion `anchor`. -/
structure Writes (dc : DataConverter ℝ) (imu anchor : Quat ℝ)
    (six : List ℝ) : Prop where
  reached : ∃ cfg ops, (run (init.configure cfg) ops).out = .ok dc
  command : dc.command.empty = false
  bodies : 0 < dc.cfg.numBodies
  anchor : dc.command.bodyQuat dc.cfg.anchorBodyIndex = .ok anchor
  written : ∃ w names pos vel obs,
    dc.buildObservation w imu names pos vel = .ok obs
      ∧ block obs (dc.anchorEnd - 6) 6 = six

/-- The orientation of the anchor relative to the robot's. -/
noncomputable def relative (dc : DataConverter ℝ) (imu anchor : Quat ℝ) :
    ℍ[ℝ] :=
  imu.toQuaternion⁻¹
    * (dc.initAlign.rBase.toQuaternion⁻¹ * anchor.toQuaternion)

variable {dc dc' : DataConverter ℝ} {imu imu' anchor anchor' : Quat ℝ}
  {six six' : List ℝ}

/-- `configure` leaves no negative index, and no call sets another. -/
theorem Writes.index_nonneg (h : Writes dc imu anchor six) :
    0 ≤ dc.cfg.anchorBodyIndex := by
  obtain ⟨cfg, ops, hrun⟩ := h.reached
  obtain ⟨hset, -⟩ := run_keeps (configure_lastLength init cfg) hrun
  obtain ⟨k, hk⟩ := hset.config
  rw [hk]
  exact Int.natCast_nonneg k

/-- What is written: the two columns of the relative orientation. -/
theorem Writes.eq (hE : Eigen.Usual) (h : Writes dc imu anchor six) :
    six = columns (rotMatrix (dc.relative imu anchor)) := by
  obtain ⟨w, names, pos, vel, obs, hobs, rfl⟩ := h.written
  have hreadable := (buildObservation_isOk_iff.mp ⟨obs, hobs⟩).anchor
  obtain ⟨hp, -⟩ := hreadable h.command h.bodies h.index_nonneg
  obtain ⟨p, hpos⟩ := MotionCommand.bodyPos_isOk_iff.mpr hp
  rw [Int.toNat_of_nonneg h.index_nonneg] at hpos
  have hblock := anchorBlock_pose (q := imu) h.command h.bodies
    h.index_nonneg hpos h.anchor
  have hmat : (Eigen.toRotationMatrix (Eigen.mul (Eigen.inverse imu)
      (dc.initAlign.alignQuat anchor))).toMatrix
      = rotMatrix (dc.relative imu anchor) := by
    unfold TransformAlignment.alignQuat relative
    rw [hE.toRotationMatrix, hE.mul, hE.inverse, hE.mul, hE.inverse]
  rw [block_orientation hobs hblock, poseBlock_drop, ← hmat]
  rfl

/-- In every run with calls of full size, a motion command and bodies are
enough for the values to be written. -/
theorem writes_of_run {cfg : BeyondMimicConfig ℝ}
    (hrunnable : cfg.Runnable) {ops : List (Op ℝ ℝ)}
    (hops : ∀ op ∈ ops, op.WellSized cfg.numDof cfg.numBodies)
    (hrun : (run (init.configure cfg) ops).out = .ok dc)
    (hcommand : dc.command.empty = false)
    (hbodies : 0 < dc.cfg.numBodies) (imu : Quat ℝ) :
    ∃ anchor six, Writes dc imu anchor six := by
  obtain ⟨dc', hrun', hsound⟩ := run_configure_ok hrunnable hops
  rw [hrun] at hrun'
  cases hrun'
  have hobs := hsound.observable (configure_ready _ hrunnable)
  obtain ⟨obs, hbuild⟩ : ∃ obs, dc.buildObservation Vec3.zero imu [] [] []
      = .ok obs := buildObservation_isOk_iff.mpr hobs
  obtain ⟨k, hk, -⟩ := (configure_ready init hrunnable).anchor
  have hindex : dc.cfg.anchorBodyIndex = k := by
    rw [hsound.setup.cfg, hk]
  have hreadable := (hobs.anchor hcommand hbodies
    (by rw [hindex]; exact Int.natCast_nonneg k)).2
  rw [hindex, Int.toNat_natCast] at hreadable
  obtain ⟨anchor, hanchor⟩ :=
    MotionCommand.bodyQuat_isOk_iff.mpr hreadable
  rw [← hindex] at hanchor
  exact ⟨anchor, _, ⟨cfg, ops, hrun⟩, hcommand, hbodies, hanchor,
    _, _, _, _, obs, hbuild, rfl⟩

-- ========================================================= at unit norm

/-- The three quaternions that meet in the block have norm one. -/
structure UnitPoses (dc : DataConverter ℝ) (imu anchor : Quat ℝ) :
    Prop where
  base : dc.initAlign.rBase.Unit
  imu : imu.Unit
  anchor : anchor.Unit

omit [Eigen ℝ] in
theorem normSq_relative (hbase : dc.initAlign.rBase.Unit) :
    normSq (dc.relative imu anchor)
      = (normSq imu.toQuaternion)⁻¹ * normSq anchor.toQuaternion := by
  unfold Quat.Unit at hbase
  unfold relative
  rw [map_mul, map_mul, normSq_inv, normSq_inv, hbase, inv_one, one_mul]

omit [Eigen ℝ] in
theorem UnitPoses.relative (h : UnitPoses dc imu anchor) :
    normSq (dc.relative imu anchor) = 1 := by
  have himu := h.imu
  have hanchor := h.anchor
  unfold Quat.Unit at himu hanchor
  rw [normSq_relative h.base, himu, hanchor, inv_one, one_mul]

/-- The six values of a rotation: the first two columns of its matrix,
orthonormal and with the third one as their cross product. -/
structure EncodesRotation (six : List ℝ) (q : ℍ[ℝ]) : Prop where
  eq : six = columns (rotMatrix q)
  orthonormal : Orthonormal ((rotMatrix q).col 0) ((rotMatrix q).col 1)
  cross : crossProduct ((rotMatrix q).col 0) ((rotMatrix q).col 1)
    = (rotMatrix q).col 2

/-- At unit norm the six values encode the relative rotation. Those of
two states are equal if and only if their relative quaternions are, up
to sign, and the signs of the three quaternions do not matter. -/
theorem orientation_faithful (hE : Eigen.Usual)
    (h : Writes dc imu anchor six) (hu : UnitPoses dc imu anchor)
    (h' : Writes dc' imu' anchor' six')
    (hu' : UnitPoses dc' imu' anchor') :
    EncodesRotation six (dc.relative imu anchor)
    ∧ (six = six' ↔ SameUpToSign (dc.relative imu anchor)
        (dc'.relative imu' anchor'))
    ∧ (SameUpToSign imu.toQuaternion imu'.toQuaternion →
        SameUpToSign dc.initAlign.rBase.toQuaternion
          dc'.initAlign.rBase.toQuaternion →
        SameUpToSign anchor.toQuaternion anchor'.toQuaternion →
        six = six') := by
  have hiff : six = six' ↔ SameUpToSign (dc.relative imu anchor)
      (dc'.relative imu' anchor') := by
    rw [h.eq hE, h'.eq hE, columns_inj]
    exact columns_eq_iff hu.relative hu'.relative
  refine ⟨⟨h.eq hE, rotMatrix_orthonormal hu.relative,
    rotMatrix_cross hu.relative⟩, hiff, ?_⟩
  intro himu hbase hanchor
  rw [hiff]
  exact himu.inv.mul (hbase.inv.mul hanchor)

-- ========================================================== at any norm

omit [Eigen ℝ] in
/-- Factors on the two quaternions are one on the relative one. -/
theorem relative_smul {c d : ℝ}
    (hbase : dc'.initAlign.rBase = dc.initAlign.rBase)
    (hi : imu'.toQuaternion = c • imu.toQuaternion)
    (ha : anchor'.toQuaternion = d • anchor.toQuaternion) :
    dc'.relative imu' anchor' = (c⁻¹ * d) • dc.relative imu anchor := by
  unfold relative
  rw [hbase, hi, ha, smul_quotient]

/-- The six values of quaternions of any norm. Factors leave them if and
only if they have the same size, and the columns are orthonormal if and
only if the two norms agree. In both cases a relative orientation
without imaginary part is the exception. -/
theorem orientation_scaled (hE : Eigen.Usual)
    (h : Writes dc imu anchor six) (h' : Writes dc' imu' anchor' six')
    (hunit : dc.initAlign.rBase.Unit)
    (hbase : dc'.initAlign.rBase = dc.initAlign.rBase)
    (himu : imu.toQuaternion ≠ 0) {c d : ℝ} (hc : c ≠ 0)
    (hi : imu'.toQuaternion = c • imu.toQuaternion)
    (ha : anchor'.toQuaternion = d • anchor.toQuaternion) :
    six = columns (rotMatrix (dc.relative imu anchor))
    ∧ (six' = six ↔ |c| = |d| ∨ (dc.relative imu anchor).im = 0)
    ∧ (Orthonormal ((rotMatrix (dc.relative imu anchor)).col 0)
          ((rotMatrix (dc.relative imu anchor)).col 1)
        ↔ normSq imu.toQuaternion = normSq anchor.toQuaternion
          ∨ (dc.relative imu anchor).im = 0) := by
  refine ⟨h.eq hE, ?_, ?_⟩
  · have hsq : c⁻¹ * d * (c⁻¹ * d) = 1 ↔ |c| = |d| := by
      rw [abs_eq_abs, ← mul_self_eq_mul_self_iff]
      field_simp
      constructor
      · intro hd
        linear_combination -hd
      · intro hd
        linear_combination -hd
    rw [h'.eq hE, h.eq hE, relative_smul hbase hi ha, columns_inj,
      columns_smul_iff, hsq]
  · have hnorm : normSq imu.toQuaternion ≠ 0 := by
      rw [Ne, normSq_eq_zero]
      exact himu
    rw [orthonormal_iff, normSq_relative hunit, inv_mul_eq_one₀ hnorm]

end

-- ===================================================== concrete states

/-- One joint and one body. -/
noncomputable def pendulum : BeyondMimicConfig ℝ :=
  { BeyondMimicConfig.init with
    jointNames := ["hip"]
    defaultDofPos := [0]
    actionScales := [1]
    robotJointNames := ["hip"]
    bodyNames := ["base"]
    anchorBodyName := "base" }

theorem pendulum_sized : pendulum.Sized := ⟨rfl, rfl⟩

/-- A motion frame whose body has the orientation `anchor`. -/
noncomputable def pendulumMotion (anchor : Quat ℝ) : MotionCommand ℝ where
  jointPos := [0]
  jointVel := [0]
  bodyPosW := [0, 0, 0]
  bodyQuatW := [anchor.w, anchor.x, anchor.y, anchor.z]

/-- The converter after a motion command and a full alignment. -/
noncomputable def posed (base anchor : Quat ℝ) : DataConverter ℝ :=
  { (init.configure pendulum) with
    command := pendulumMotion anchor
    initAlign := TransformAlignment.setBase base Vec3.zero false true }

noncomputable def posedOps (base anchor : Quat ℝ) : List (Op ℝ ℝ) :=
  [.setMotionCommand (pendulumMotion anchor),
    .setBase base Vec3.zero false true]

theorem posed_reached (base anchor : Quat ℝ) :
    (run (init.configure pendulum) (posedOps base anchor)).out
      = .ok (posed base anchor) := rfl

theorem posedOps_wellSized (base anchor : Quat ℝ) :
    ∀ op ∈ posedOps base anchor,
      op.WellSized pendulum.numDof pendulum.numBodies := by
  simp [posedOps, Op.WellSized, MotionCommand.Sized, pendulumMotion,
    pendulum, BeyondMimicConfig.numDof, BeyondMimicConfig.numBodies]

theorem posed_writes (base imu anchor : Quat ℝ) :
    Writes (posed base anchor) imu anchor
      (columns (rotMatrix ((posed base anchor).relative imu anchor))) := by
  have hbodies : (posed base anchor).cfg.numBodies = 1 :=
    configure_numBodies init pendulum
  obtain ⟨anchor', six, h⟩ := writes_of_run
    (pendulum_sized.runnable (Or.inr (List.cons_ne_nil "hip" [])))
    (posedOps_wellSized base anchor) (posed_reached base anchor) rfl
    (by rw [hbodies]; exact Nat.one_pos) imu
  -- the only body is the anchor
  obtain ⟨k, hk, hlt⟩ := pendulum.setAnchorBodyIndex_eq
  have hindex : (posed base anchor).cfg.anchorBodyIndex = 0 := by
    have hk1 : k < 1 := hlt Nat.one_pos
    show (init.configure pendulum).cfg.anchorBodyIndex = 0
    rw [configure_cfg, hk]
    show (k : Int) = 0
    omega
  have hanchor := h.anchor
  rw [hindex] at hanchor
  cases hanchor
  rw [← h.eq usual_formulas]
  exact h

theorem posed_unit {base imu anchor : Quat ℝ} (hb : base.Unit)
    (hi : imu.Unit) (ha : anchor.Unit) :
    UnitPoses (posed base anchor) imu anchor := ⟨hb, hi, ha⟩

theorem orientation_faithful_rolled :
    EncodesRotation
      (columns (rotMatrix ((posed Quat.rolledLeft Quat.rolledRight).relative
        Quat.rolledLeft Quat.rolledRight)))
      ((posed Quat.rolledLeft Quat.rolledRight).relative Quat.rolledLeft
        Quat.rolledRight)
    ∧ (columns (rotMatrix ((posed Quat.rolledLeft
          Quat.rolledRight).relative Quat.rolledLeft Quat.rolledRight))
        = columns (rotMatrix ((posed Quat.rolledRight
          Quat.rolledLeft).relative Quat.rolledLeft Quat.rolledLeft))
      ↔ SameUpToSign
        ((posed Quat.rolledLeft Quat.rolledRight).relative
          Quat.rolledLeft Quat.rolledRight)
        ((posed Quat.rolledRight Quat.rolledLeft).relative
          Quat.rolledLeft Quat.rolledLeft)) := by
  have hone := posed_writes Quat.rolledLeft Quat.rolledLeft
    Quat.rolledRight
  have htwo := posed_writes Quat.rolledRight Quat.rolledLeft
    Quat.rolledLeft
  have huone := posed_unit Quat.rolledLeft_unit Quat.rolledLeft_unit
    Quat.rolledRight_unit
  have hutwo := posed_unit Quat.rolledRight_unit Quat.rolledLeft_unit
    Quat.rolledLeft_unit
  obtain ⟨hencodes, hiff, -⟩ :=
    orientation_faithful usual_formulas hone huone htwo hutwo
  exact ⟨hencodes, hiff⟩

/-- A body turned by half a turn, with a quaternion of any norm. -/
def halfTurn (k : ℝ) : Quat ℝ := ⟨0, k, 0, 0⟩

theorem halfTurn_smul (k : ℝ) :
    (halfTurn k).toQuaternion = k • (halfTurn 1).toQuaternion := by
  ext
  all_goals simp [halfTurn]

theorem identity_unit : (Quat.identity : Quat ℝ).Unit := by
  unfold Quat.Unit
  rw [normSq_eq]
  simp [Quat.identity]

/-- With an upright robot the relative quaternion is the body's own. -/
theorem posed_identity_relative (anchor : Quat ℝ) :
    (posed Quat.identity anchor).relative Quat.identity anchor
      = anchor.toQuaternion := by
  have hone : (Quat.identity : Quat ℝ).toQuaternion = 1 := by
    ext
    all_goals simp [Quat.identity]
  show (Quat.identity : Quat ℝ).toQuaternion⁻¹
    * ((Quat.identity : Quat ℝ).toQuaternion⁻¹ * anchor.toQuaternion) = _
  rw [hone, inv_one, one_mul, one_mul]

theorem halfTurn_writes (k : ℝ) :
    Writes (posed Quat.identity (halfTurn k)) Quat.identity (halfTurn k)
      [1, 0, 0, 1 - 2 * (k * k), 0, 0] := by
  have h := posed_writes Quat.identity Quat.identity (halfTurn k)
  have hcolumns : columns (rotMatrix (halfTurn k).toQuaternion)
      = [1, 0, 0, 1 - 2 * (k * k), 0, 0] := by
    simp [columns, rotMatrix, halfTurn]
  rw [posed_identity_relative, hcolumns] at h
  exact h

theorem orientation_scaled_halfTurn :
    [1, 0, 0, 1 - 2 * (1 * 1), 0, 0] = columns (rotMatrix
      ((posed Quat.identity (halfTurn 1)).relative Quat.identity
        (halfTurn 1)))
    ∧ (([1, 0, 0, 1 - 2 * (2 * 2), 0, 0] : List ℝ)
        = [1, 0, 0, 1 - 2 * (1 * 1), 0, 0]
      ↔ |(1 : ℝ)| = |2| ∨ ((posed Quat.identity (halfTurn 1)).relative
        Quat.identity (halfTurn 1)).im = 0) := by
  have hi : (Quat.identity : Quat ℝ).toQuaternion
      = (1 : ℝ) • (Quat.identity : Quat ℝ).toQuaternion :=
    (one_smul ℝ _).symm
  obtain ⟨heq, hiff, -⟩ := orientation_scaled usual_formulas
    (halfTurn_writes 1) (halfTurn_writes 2) identity_unit rfl
    identity_unit.ne_zero one_ne_zero hi (halfTurn_smul 2)
  exact ⟨heq, hiff⟩

/-- Doubling the quaternion of a body changes the six values, and their
columns are not orthonormal any more. -/
theorem doubled_anchor :
    (Quat.identity : Quat ℝ).Unit
    ∧ (halfTurn 2).toQuaternion = (2 : ℝ) • (halfTurn 1).toQuaternion
    ∧ Writes (posed Quat.identity (halfTurn 1)) Quat.identity
      (halfTurn 1) [1, 0, 0, -1, 0, 0]
    ∧ Writes (posed Quat.identity (halfTurn 2)) Quat.identity
      (halfTurn 2) [1, 0, 0, -7, 0, 0]
    ∧ ([1, 0, 0, -1, 0, 0] : List ℝ) ≠ [1, 0, 0, -7, 0, 0]
    ∧ ¬Orthonormal (![1, 0, 0] : Fin 3 → ℝ) ![0, -7, 0] := by
  have hone := halfTurn_writes 1
  have htwo := halfTurn_writes 2
  norm_num at hone htwo
  refine ⟨identity_unit, halfTurn_smul 2, hone, htwo, ?_, ?_⟩
  · norm_num
  · intro h
    have hright : (0 : ℝ) * 0 + -7 * -7 + 0 * 0 = 1 :=
      (vec3_dotProduct _ _).symm.trans h.right
    norm_num at hright

end DataConverter

end RlDeploy
