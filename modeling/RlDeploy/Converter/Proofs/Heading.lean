/-
Yaw-only alignment: what `setBase(q, p, true, true)` takes out of the
base pose.

It is meant to take out the heading and the position on the ground, so
that the aligned pose looks along the positive x axis and stands on the
origin. The ground position is always right, and the stored rotation is
always one about the vertical axis. The heading is not. The source takes
the third angle of the decomposition about x, y and z, and two things
can go wrong with it.

- Eigen keeps the first angle in the upper half turn. A pose that leans
  to the other side gets the other decomposition, with both further
  angles a half turn off, and the aligned pose looks backwards.
- The rotation about z is the first one to be applied, not the last. So
  unless the x axis is turned by a right angle, its angle is the heading
  only for quaternions without x or without y component: a pose that
  leans and has a heading is turned by the wrong angle.

`removesHeading_iff` is exact for every library that decomposes as
Eigen documents. Where the pose has no roll the decomposition is not
unique, and the condition names the angle the library starts from. For a
library that starts from zero there, it is a condition on the pose alone
(`removesHeading_level`).
-/
import RlDeploy.Geometry

namespace RlDeploy

open Lib Quaternion

namespace TransformAlignment

section

variable [Eigen ℝ]

/-- The matrix of a pose, and that of the same pose aligned to its own
base with `yaw_only` and `xy_only`. -/
def poseMatrix (q : Quat ℝ) : Mat3 ℝ := Eigen.toRotationMatrix q

noncomputable def alignedMatrix (q : Quat ℝ) (p : Vec3 ℝ) : Mat3 ℝ :=
  Eigen.toRotationMatrix ((setBase q p true true).alignQuat q)

/-- What the alignment of a pose to its own base is to come to. -/
structure RemovesHeading (q : Quat ℝ) (p : Vec3 ℝ) : Prop where
  aboutZ : ∃ t, (Eigen.toRotationMatrix
    (setBase q p true true).rBase).toMatrix = rotZ t
  sideways : (alignedMatrix q p).row1.x = 0
  forward : 0 < (alignedMatrix q p).row0.x
  ground : (setBase q p true true).alignPos p = ⟨0, 0, p.z⟩

/-- The pose's x axis is vertical: it has no heading. -/
def Vertical (q : Quat ℝ) : Prop :=
  (poseMatrix q).row0.x = 0 ∧ (poseMatrix q).row1.x = 0

-- ============================================ what is always taken out

theorem rBase_aboutZ (hE : Eigen.Usual) (q : Quat ℝ) (p : Vec3 ℝ) :
    (Eigen.toRotationMatrix (setBase q p true true).rBase).toMatrix
      = rotZ (Eigen.eulerAngles (poseMatrix q)).z := by
  rw [hE.toRotationMatrix]
  show rotMatrix (Eigen.angleAxisZ
    (Eigen.eulerAngles (poseMatrix q)).z : Quat ℝ).toQuaternion = _
  rw [hE.angleAxisZ, rotMatrix_axisZ]

omit [Eigen ℝ] in
/-- A rotation about z keeps a vertical vector. -/
theorem axisZ_vertical (t z : ℝ) :
    axisZ t * (⟨0, 0, z⟩ : Vec3 ℝ).toQuaternion * (axisZ t)⁻¹
      = (⟨0, 0, z⟩ : Vec3 ℝ).toQuaternion := by
  have hcomm : axisZ t * (⟨0, 0, z⟩ : Vec3 ℝ).toQuaternion
      = (⟨0, 0, z⟩ : Vec3 ℝ).toQuaternion * axisZ t := by
    ext
    all_goals simp
    all_goals ring
  rw [hcomm, mul_inv_cancel_right₀ (axisZ_ne_zero t)]

theorem alignPos_ground (hE : Eigen.Usual) (q : Quat ℝ) (p : Vec3 ℝ) :
    (setBase q p true true).alignPos p = ⟨0, 0, p.z⟩ := by
  have hsub : p.sub (⟨p.x, p.y, 0⟩ : Vec3 ℝ) = ⟨0, 0, p.z⟩ := by
    unfold Vec3.sub
    rw [sub_self, sub_self, sub_zero]
  rw [← Vec3.toQuaternion_inj]
  show (Eigen.rotate (Eigen.inverse (Eigen.angleAxisZ
      (Eigen.eulerAngles (poseMatrix q)).z)) (p.sub ⟨p.x, p.y, 0⟩)
    ).toQuaternion = _
  rw [hsub, hE.rotate _ _ (hE.inverse_unit (hE.angleAxisZ_unit _)),
    hE.inverse, hE.angleAxisZ, axisZ_inv, axisZ_vertical]

-- ========================================================= the heading

/-- The aligned pose is the pose, turned back by the third angle. -/
theorem alignedMatrix_eq (hE : Eigen.Usual) {q : Quat ℝ} (hq : q.Unit)
    (p : Vec3 ℝ) : (alignedMatrix q p).toMatrix
      = rotZ (-(Eigen.eulerAngles (poseMatrix q)).z)
        * (poseMatrix q).toMatrix := by
  unfold alignedMatrix alignQuat
  rw [hE.toRotationMatrix, hE.mul, hE.inverse]
  show rotMatrix ((Eigen.angleAxisZ
      (Eigen.eulerAngles (poseMatrix q)).z : Quat ℝ).toQuaternion⁻¹
    * q.toQuaternion) = _
  rw [hE.angleAxisZ, axisZ_inv, rotMatrix_mul (normSq_axisZ _) hq,
    rotMatrix_axisZ, ← hE.toRotationMatrix]
  rfl

/-- So everything hangs on the third angle being the heading. -/
theorem removesHeading_iff_isHeading (hE : Eigen.Usual) {q : Quat ℝ}
    (hq : q.Unit) (p : Vec3 ℝ) : RemovesHeading q p
      ↔ IsHeading (poseMatrix q).toMatrix
        (Eigen.eulerAngles (poseMatrix q)).z := by
  rw [isHeading_iff, ← alignedMatrix_eq hE hq p]
  constructor
  · intro h
    exact ⟨h.sideways, h.forward⟩
  · rintro ⟨hzero, hpos⟩
    exact ⟨⟨_, rBase_aboutZ hE q p⟩, hzero, hpos, alignPos_ground hE q p⟩

theorem pose_isRotation (hE : Eigen.Usual) {q : Quat ℝ} (hq : q.Unit) :
    IsRotation (poseMatrix q).toMatrix := by
  rw [poseMatrix, hE.toRotationMatrix]
  exact rotMatrix_isRotation hq

/-- The third angle of a unit pose is its heading in the cases of
`ThirdIsHeading`. -/
theorem isHeading_pose (hE : Eigen.Usual) (hA : Eigen.Angles)
    {q : Quat ℝ} (hq : q.Unit) (hx : ¬Vertical q) :
    IsHeading (poseMatrix q).toMatrix
        (Eigen.eulerAngles (poseMatrix q)).z
      ↔ ThirdIsHeading (poseMatrix q).toMatrix
        (Eigen.eulerAngles (poseMatrix q)).x :=
  heading_iff (hA _ (pose_isRotation hE hq)) hx

/-- Yaw-only alignment of a pose to itself removes its heading exactly
where the third angle is the heading. -/
theorem removesHeading_iff (hE : Eigen.Usual) (hA : Eigen.Angles)
    {q : Quat ℝ} (hq : q.Unit) (hx : ¬Vertical q) (p : Vec3 ℝ) :
    RemovesHeading q p ↔ ThirdIsHeading (poseMatrix q).toMatrix
      (Eigen.eulerAngles (poseMatrix q)).x := by
  rw [removesHeading_iff_isHeading hE hq p]
  exact isHeading_pose hE hA hq hx

/-- The same for a library that starts from zero where it can: in terms
of the pose alone. -/
theorem removesHeading_level (hE : Eigen.Usual) (hA : Eigen.Angles)
    (hL : Eigen.StartsLevel) {q : Quat ℝ} (hq : q.Unit)
    (hx : ¬Vertical q) (p : Vec3 ℝ) :
    RemovesHeading q p ↔ LevelHeading (poseMatrix q).toMatrix := by
  rw [removesHeading_iff_isHeading hE hq p, isHeading_pose hE hA hq hx]
  exact thirdIsHeading_level (hL _ (pose_isRotation hE hq))

end

-- ============================================== leaning left and right

/-- The entries of a pose with roll alone: the sign of `R 1 2` tells the
side it leans to. -/
theorem poseMatrix_roll (w x : ℝ) :
    (poseMatrix ⟨w, x, 0, 0⟩).toMatrix 0 0 = 1
      ∧ (poseMatrix ⟨w, x, 0, 0⟩).toMatrix 0 1 = 0
      ∧ (poseMatrix ⟨w, x, 0, 0⟩).toMatrix 1 0 = 0
      ∧ (poseMatrix ⟨w, x, 0, 0⟩).toMatrix 1 2 = -(2 * (w * x)) := by
  refine ⟨?_, ?_, ?_, ?_⟩
  · show 1 - 2 * (0 * 0 + 0 * 0) = (1 : ℝ)
    ring
  · show 2 * (x * 0 - w * 0) = 0
    ring
  · show 2 * (x * 0 + w * 0) = 0
    ring
  · show 2 * (0 * 0 - w * x) = -(2 * (w * x))
    ring

theorem roll_not_vertical (w x : ℝ) : ¬Vertical ⟨w, x, 0, 0⟩ := by
  rintro ⟨h, -⟩
  exact one_ne_zero ((poseMatrix_roll w x).1.symm.trans h)

theorem removesHeading_iff_rolledLeft :
    RemovesHeading Quat.rolledLeft ⟨1, 2, 3⟩ := by
  obtain ⟨h00, h01, h10, h12⟩ := poseMatrix_roll (4 / 5) (3 / 5)
  apply (removesHeading_iff usual_formulas angles_formulas
    Quat.rolledLeft_unit (roll_not_vertical _ _) ⟨1, 2, 3⟩).mpr
  unfold Quat.rolledLeft
  apply ThirdIsHeading.rolled
  · rw [h12]
    norm_num
  · rw [h01, h10, add_zero, mul_zero]
  · rw [h00, h01, h12]
    norm_num

/-- Every decomposition of a pose that leans to the right ends with a
half turn. -/
theorem third_of_rolledRight {a b c : ℝ}
    (h : IsEuler (poseMatrix Quat.rolledRight).toMatrix a b c) :
    Real.cos c = -1 ∧ Real.sin c = 0 := by
  obtain ⟨h00, h01, -, h12⟩ := poseMatrix_roll (4 / 5) (-3 / 5)
  have e := h.entries
  have hcos : 1 = Real.cos b * Real.cos c := h00.symm.trans e.zero_zero
  have hsin : 0 = -(Real.cos b * Real.sin c) := h01.symm.trans e.zero_one
  have hroll : -(2 * (4 / 5 * (-3 / 5))) = -(Real.sin a * Real.cos b) :=
    h12.symm.trans e.one_two
  have ha := Real.sin_nonneg_of_nonneg_of_le_pi h.nonneg h.le_pi
  have hb : Real.cos b < 0 := by
    by_contra hb
    have hpos := mul_nonneg ha (not_lt.mp hb)
    linarith
  have hs : Real.sin c = 0 := by
    have hmul : Real.cos b * Real.sin c = 0 := by linarith
    exact (mul_eq_zero.mp hmul).resolve_left hb.ne
  refine ⟨?_, hs⟩
  rcases Real.sin_eq_zero_iff_cos_eq.mp hs with hc | hc
  · rw [hc] at hcos
    linarith
  · exact hc

/-- A pose that leans to the right, without heading, is turned by half a
turn: the aligned pose looks backwards. -/
theorem rolledRight_turned : Eigen.Usual ∧ Eigen.Angles
    ∧ Quat.rolledRight.Unit ∧ ¬Vertical Quat.rolledRight
    ∧ (alignedMatrix Quat.rolledRight ⟨1, 2, 3⟩).row0.x = -1
    ∧ ¬RemovesHeading Quat.rolledRight ⟨1, 2, 3⟩ := by
  have hx : (alignedMatrix Quat.rolledRight ⟨1, 2, 3⟩).row0.x = -1 := by
    obtain ⟨h00, -, -, -⟩ := poseMatrix_roll (4 / 5) (-3 / 5)
    obtain ⟨hc, hs⟩ := third_of_rolledRight
      (angles_formulas _
        (pose_isRotation usual_formulas Quat.rolledRight_unit))
    show (alignedMatrix Quat.rolledRight ⟨1, 2, 3⟩).toMatrix 0 0 = -1
    rw [alignedMatrix_eq usual_formulas Quat.rolledRight_unit,
      turned_zero, hc, hs, zero_mul, add_zero]
    exact (congrArg (-1 * ·) h00).trans (mul_one _)
  refine ⟨usual_formulas, angles_formulas, Quat.rolledRight_unit,
    roll_not_vertical _ _, hx, ?_⟩
  intro h
  have hforward := h.forward
  rw [hx] at hforward
  norm_num at hforward

end TransformAlignment

end RlDeploy
