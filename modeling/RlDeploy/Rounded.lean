/-
The finite numbers of the source's `float`, rounded.

Every operation gives a nearest number of the format (`Rounding`), one
rounding for each operator of the source. There is no greatest number,
no NaN and no sign of zero: a run here is the machine's, up to that sign,
if all that comes in is finite and nothing overflows. What the rest does
to a run is a matter of `Machine`. A double of a message is any rational:
a float is one exactly, and the other way round is a rounding.

`single` has the numbers of `float`: single precision, ties to even.
-/
import RlDeploy.Converter.Basic
import RlDeploy.Lib.Rounding

namespace RlDeploy

open Lib

variable {R : Rounding ℚ}

/-- Rounded arithmetic. -/
instance : Scalar R.Value ℚ where
  lt a b := decide (a.val < b.val)
  ofRat q := .of R q
  narrow q := .of R q
  widen a := a.val
  zeroD := 0

@[simp] theorem val_widen (a : R.Value) :
    (Scalar.widen a : ℚ) = a.val := rfl

/-- A comparison is exact, so a clamp is. -/
theorem val_clamp (x c : R.Value) :
    (clamp x (-c) c).val = clamp x.val (-c.val) c.val := by
  have hlo : Scalar.lt x (-c) = Scalar.lt x.val (-c.val) := rfl
  have hhi : Scalar.lt c x = Scalar.lt c.val x.val := rfl
  unfold clamp
  rw [hlo, hhi]
  split
  · rfl
  split
  · rfl
  · rfl

/-- The configuration as exact numbers. -/
def BeyondMimicConfig.exact (cfg : BeyondMimicConfig R.Value) :
    BeyondMimicConfig ℚ :=
  { jointNames := cfg.jointNames
    defaultDofPos := cfg.defaultDofPos.map Rounding.Value.val
    kp := cfg.kp.map Rounding.Value.val
    kd := cfg.kd.map Rounding.Value.val
    actionScales := cfg.actionScales.map Rounding.Value.val
    robotJointNames := cfg.robotJointNames
    jointNameMap := cfg.jointNameMap
    anchorBodyName := cfg.anchorBodyName
    bodyNames := cfg.bodyNames
    anchorBodyIndex := cfg.anchorBodyIndex
    withoutStateEstimator := cfg.withoutStateEstimator
    useMotionFromModel := cfg.useMotionFromModel
    useResidualAction := cfg.useResidualAction
    overrideRobotAnchorPos := cfg.overrideRobotAnchorPos
    actionBeta := cfg.actionBeta.val
    clipActions := cfg.clipActions.val
    maxTimestep := cfg.maxTimestep
    startTimestep := cfg.startTimestep }

/-- The finite numbers of `float`. -/
abbrev single : Rounding ℚ := Rounding.binary 23 149

/-- Eigen on rounded numbers for concrete runs: what it is on rationals,
rounded at the end. -/
@[reducible] def Eigen.rounded (R : Rounding ℚ) : Eigen R.Value :=
  let quat (q : Quat R.Value) : Quat ℚ :=
    ⟨q.w.val, q.x.val, q.y.val, q.z.val⟩
  let vec (v : Vec3 R.Value) : Vec3 ℚ := ⟨v.x.val, v.y.val, v.z.val⟩
  let toQuat (q : Quat ℚ) : Quat R.Value :=
    ⟨.of R q.w, .of R q.x, .of R q.y, .of R q.z⟩
  let toVec (v : Vec3 ℚ) : Vec3 R.Value := ⟨.of R v.x, .of R v.y, .of R v.z⟩
  { inverse := fun q => toQuat (Eigen.inverse (quat q))
    mul := fun a b => toQuat (Eigen.mul (quat a) (quat b))
    rotate := fun q v => toVec (Eigen.rotate (quat q) (vec v))
    toRotationMatrix := fun q =>
      let m := Eigen.toRotationMatrix (quat q)
      ⟨toVec m.row0, toVec m.row1, toVec m.row2⟩
    eulerAngles := fun m =>
      toVec (Eigen.eulerAngles ⟨vec m.row0, vec m.row1, vec m.row2⟩)
    angleAxisZ := fun a => toQuat (Eigen.angleAxisZ a.val) }

instance : Eigen single.Value := Eigen.rounded single

end RlDeploy
