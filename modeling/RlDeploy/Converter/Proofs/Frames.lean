/-
Frame subtraction: what `subtractFrameTransforms` returns is the second
frame as seen from the first, and a common alignment of both leaves it.

The source subtracts and aligns by two pieces of code. Both are
`Frame.relative` once positions and orientations are read as
quaternions: the alignment is relative to the base, the subtraction to
the first frame. So that the base cancels is a law of frames. It needs
the base to have norm one, which the Eigen rotation of a vector relies
on, and every base that `setBase` stores has: the pose's own
orientation, or a rotation about the vertical axis.
-/
import RlDeploy.Geometry
import RlDeploy.Lib.Frame

namespace RlDeploy

open Lib Quaternion

/-- `Vector3f + Vector3f`. -/
def Vec3.add {F D : Type} [Scalar F D] (a b : Vec3 F) : Vec3 F :=
  ⟨a.x + b.x, a.y + b.y, a.z + b.z⟩

theorem Vec3.toQuaternion_add (v w : Vec3 ℝ) :
    (v.add w).toQuaternion = v.toQuaternion + w.toQuaternion := by
  ext
  · exact (add_zero 0).symm
  · rfl
  · rfl
  · rfl

/-- A position and an orientation as a frame. -/
def frame (t : Vec3 ℝ) (q : Quat ℝ) : Frame ℍ[ℝ] :=
  ⟨t.toQuaternion, q.toQuaternion⟩

theorem frame_inj {t t' : Vec3 ℝ} {q q' : Quat ℝ} :
    frame t q = frame t' q' ↔ (t, q) = (t', q') := by
  unfold frame
  rw [Frame.mk.injEq, Vec3.toQuaternion_inj, Quat.toQuaternion_inj,
    Prod.mk.injEq]

section

variable [Eigen ℝ]

/-- `t01 + q01 * t12 = t02` and `q01 * q12 = q02`. -/
def Composes (t01 : Vec3 ℝ) (q01 : Quat ℝ) (t12 : Vec3 ℝ) (q12 : Quat ℝ)
    (t02 : Vec3 ℝ) (q02 : Quat ℝ) : Prop :=
  t01.add (Eigen.rotate q01 t12) = t02 ∧ Eigen.mul q01 q12 = q02

theorem composes_iff (hE : Eigen.Usual) {t01 t12 t02 : Vec3 ℝ}
    {q01 q12 q02 : Quat ℝ} (h : q01.Unit) :
    Composes t01 q01 t12 q12 t02 q02
      ↔ (frame t01 q01).compose (frame t12 q12) = frame t02 q02 := by
  unfold Composes frame Frame.compose
  rw [Frame.mk.injEq, ← hE.rotate _ _ h, ← Vec3.toQuaternion_add,
    ← hE.mul, Vec3.toQuaternion_inj, Quat.toQuaternion_inj]

/-- A position relative to another, in the axes of `q`. -/
theorem rotate_inverse_sub (hE : Eigen.Usual) {q : Quat ℝ} (h : q.Unit)
    (t t' : Vec3 ℝ) :
    (Eigen.rotate (Eigen.inverse q) (t'.sub t)).toQuaternion
      = q.toQuaternion⁻¹ * (t'.toQuaternion - t.toQuaternion)
        * q.toQuaternion := by
  rw [hE.rotate _ _ (hE.inverse_unit h), hE.inverse, inv_inv,
    Vec3.toQuaternion_sub]

theorem frame_subtract (hE : Eigen.Usual) {t01 t02 : Vec3 ℝ}
    {q01 q02 : Quat ℝ} (h : q01.Unit) :
    frame (subtractFrameTransforms t01 q01 t02 q02).1
        (subtractFrameTransforms t01 q01 t02 q02).2
      = (frame t01 q01).relative (frame t02 q02) := by
  unfold subtractFrameTransforms frame Frame.relative
  rw [rotate_inverse_sub hE h, hE.mul, hE.inverse]

theorem frame_align (hE : Eigen.Usual) {a : TransformAlignment ℝ}
    (h : a.rBase.Unit) (q : Quat ℝ) (t : Vec3 ℝ) :
    frame (a.alignTransform q t).2 (a.alignTransform q t).1
      = (frame a.pBase a.rBase).relative (frame t q) := by
  unfold TransformAlignment.alignTransform TransformAlignment.alignQuat
    TransformAlignment.alignPos frame Frame.relative
  rw [rotate_inverse_sub hE h, hE.mul, hE.inverse]

/-- The result of `subtractFrameTransforms` is the only pair that
composes with the first frame to the second, and aligning both frames by
any base that a `setBase` call stores does not change it. -/
theorem subtract_inverts (hE : Eigen.Usual) {q01 : Quat ℝ}
    (h01 : q01.Unit) (t01 t02 : Vec3 ℝ) (q02 : Quat ℝ) :
    (∀ t12 q12, Composes t01 q01 t12 q12 t02 q02
      ↔ (t12, q12) = subtractFrameTransforms t01 q01 t02 q02)
    ∧ ∀ (quat : Quat ℝ) (pos : Vec3 ℝ) (yawOnly xyOnly : Bool),
        quat.Unit →
        let a := TransformAlignment.setBase quat pos yawOnly xyOnly
        let one := a.alignTransform q01 t01
        let two := a.alignTransform q02 t02
        subtractFrameTransforms one.2 one.1 two.2 two.1
          = subtractFrameTransforms t01 q01 t02 q02 := by
  constructor
  · intro t12 q12
    rw [composes_iff hE h01, Frame.compose_eq_iff h01.ne_zero,
      ← frame_subtract hE h01, frame_inj]
  · intro quat pos yawOnly xyOnly hquat a one two
    have hbase : a.rBase.Unit := hE.setBase_unit hquat pos yawOnly xyOnly
    have hone : one.1.Unit := hE.mul_unit (hE.inverse_unit hbase) h01
    rw [← Prod.eta (subtractFrameTransforms one.2 one.1 two.2 two.1),
      ← Prod.eta (subtractFrameTransforms t01 q01 t02 q02), ← frame_inj,
      frame_subtract hE hone, frame_subtract hE h01,
      frame_align hE hbase, frame_align hE hbase,
      Frame.relative_relative hbase.ne_zero]

end

theorem subtract_inverts_rolled :
    (∀ t12 q12, Composes ⟨1, 0, 2⟩ Quat.rolledLeft t12 q12 ⟨0, 1, 0⟩
        Quat.rolledRight
      ↔ (t12, q12) = subtractFrameTransforms ⟨1, 0, 2⟩ Quat.rolledLeft
          ⟨0, 1, 0⟩ Quat.rolledRight)
    ∧ ∀ (quat : Quat ℝ) (pos : Vec3 ℝ) (yawOnly xyOnly : Bool),
        quat.Unit →
        let a := TransformAlignment.setBase quat pos yawOnly xyOnly
        let one := a.alignTransform Quat.rolledLeft ⟨1, 0, 2⟩
        let two := a.alignTransform Quat.rolledRight ⟨0, 1, 0⟩
        subtractFrameTransforms one.2 one.1 two.2 two.1
          = subtractFrameTransforms ⟨1, 0, 2⟩ Quat.rolledLeft ⟨0, 1, 0⟩
            Quat.rolledRight :=
  subtract_inverts usual_formulas Quat.rolledLeft_unit ⟨1, 0, 2⟩
    ⟨0, 1, 0⟩ Quat.rolledRight

end RlDeploy
