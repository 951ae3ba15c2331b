/-
The geometry of the source over Eigen (`data_converter.hpp`,
`data_converter.cpp`): the frame alignment and the frame subtraction.

Eigen is not part of the repository, so the operations the source calls
are parameters (`Eigen F`), one field a call. What Eigen documents about
them is assumed only where a result needs it; the results on layout,
indexing and control flow hold whatever these operations compute.
-/
import RlDeploy.Basic

namespace RlDeploy

/-- The Eigen operations the source calls. -/
class Eigen (F : Type) where
  /-- `Quaternionf::inverse`. -/
  inverse : Quat F → Quat F
  /-- `Quaternionf * Quaternionf`. -/
  mul : Quat F → Quat F → Quat F
  /-- `Quaternionf * Vector3f`. -/
  rotate : Quat F → Vec3 F → Vec3 F
  /-- `Quaternionf::toRotationMatrix`. -/
  toRotationMatrix : Quat F → Mat3 F
  /-- `Matrix3f::eulerAngles(0, 1, 2)`. -/
  eulerAngles : Mat3 F → Vec3 F
  /-- `Quaternionf` of `AngleAxisf(angle, UnitZ())`. -/
  angleAxisZ : F → Quat F

/-- The operations by the formulas Eigen documents: the inverse is the
conjugate over the squared norm, the rotation of a vector and the matrix
are polynomial and do not normalise. The two operations that go through
an angle are given. -/
@[reducible] def Eigen.formulas {F : Type} [Field F]
    (eulerAngles : Mat3 F → Vec3 F) (angleAxisZ : F → Quat F) : Eigen F where
  inverse q :=
    let n := q.w * q.w + q.x * q.x + q.y * q.y + q.z * q.z
    ⟨q.w / n, -q.x / n, -q.y / n, -q.z / n⟩
  mul a b :=
    ⟨a.w * b.w - a.x * b.x - a.y * b.y - a.z * b.z,
      a.w * b.x + a.x * b.w + a.y * b.z - a.z * b.y,
      a.w * b.y + a.y * b.w + a.z * b.x - a.x * b.z,
      a.w * b.z + a.z * b.w + a.x * b.y - a.y * b.x⟩
  rotate q v :=
    let ux := 2 * (q.y * v.z - q.z * v.y)
    let uy := 2 * (q.z * v.x - q.x * v.z)
    let uz := 2 * (q.x * v.y - q.y * v.x)
    ⟨v.x + q.w * ux + (q.y * uz - q.z * uy),
      v.y + q.w * uy + (q.z * ux - q.x * uz),
      v.z + q.w * uz + (q.x * uy - q.y * ux)⟩
  toRotationMatrix q :=
    ⟨⟨1 - 2 * (q.y * q.y + q.z * q.z), 2 * (q.x * q.y - q.w * q.z),
        2 * (q.x * q.z + q.w * q.y)⟩,
      ⟨2 * (q.x * q.y + q.w * q.z), 1 - 2 * (q.x * q.x + q.z * q.z),
        2 * (q.y * q.z - q.w * q.x)⟩,
      ⟨2 * (q.x * q.z - q.w * q.y), 2 * (q.y * q.z + q.w * q.x),
        1 - 2 * (q.x * q.x + q.y * q.y)⟩⟩
  eulerAngles := eulerAngles
  angleAxisZ := angleAxisZ

/-- Rational Eigen for concrete runs on poses without heading: the
angles of such a pose are zero, and the zero angle is no rotation. -/
instance : Eigen ℚ :=
  Eigen.formulas (fun _ => ⟨0, 0, 0⟩) (fun _ => ⟨1, 0, 0, 0⟩)

variable {F D : Type} [Scalar F D]

/-- `Vector3f - Vector3f`, coefficient by coefficient. -/
def Vec3.sub (a b : Vec3 F) : Vec3 F :=
  ⟨a.x - b.x, a.y - b.y, a.z - b.z⟩

/-- `Vector3f::Zero()`. -/
def Vec3.zero : Vec3 F := ⟨0, 0, 0⟩

/-- `Quaternionf::Identity()`. -/
def Quat.identity : Quat F := ⟨1, 0, 0, 0⟩

/-- The `Quaternionf` built from four doubles. -/
def Quat.narrow (q : Quat D) : Quat F :=
  ⟨Scalar.narrow q.w, Scalar.narrow q.x, Scalar.narrow q.y,
    Scalar.narrow q.z⟩

/-- The `Vector3f` built from three doubles. -/
def Vec3.narrow (v : Vec3 D) : Vec3 F :=
  ⟨Scalar.narrow v.x, Scalar.narrow v.y, Scalar.narrow v.z⟩

-- ================================================= TransformAlignment

/-- `class TransformAlignment`: the base pose poses are aligned to. -/
structure TransformAlignment (F : Type) where
  rBase : Quat F
  pBase : Vec3 F
  yawOnly : Bool
  xyOnly : Bool
  deriving DecidableEq, Repr

/-- The default-constructed alignment. -/
def TransformAlignment.init : TransformAlignment F where
  rBase := Quat.identity
  pBase := Vec3.zero
  yawOnly := true
  xyOnly := true

namespace TransformAlignment

variable [Eigen F]

def setBase (quat : Quat F) (pos : Vec3 F) (yawOnly xyOnly : Bool) :
    TransformAlignment F where
  rBase :=
    if yawOnly then
      Eigen.angleAxisZ
        (Eigen.eulerAngles (Eigen.toRotationMatrix quat)).z
    else quat
  pBase := if xyOnly then ⟨pos.x, pos.y, 0⟩ else pos
  yawOnly := yawOnly
  xyOnly := xyOnly

def alignQuat (a : TransformAlignment F) (q : Quat F) : Quat F :=
  Eigen.mul (Eigen.inverse a.rBase) q

def alignPos (a : TransformAlignment F) (p : Vec3 F) : Vec3 F :=
  Eigen.rotate (Eigen.inverse a.rBase) (p.sub a.pBase)

def alignTransform (a : TransformAlignment F) (q : Quat F) (p : Vec3 F) :
    Quat F × Vec3 F :=
  (a.alignQuat q, a.alignPos p)

end TransformAlignment

-- ===================================================== math utilities

section

variable [Eigen F]

def matrixFromQuat (q : Quat F) : Mat3 F := Eigen.toRotationMatrix q

/-- `subtractFrameTransforms`, with its two output references as the
result `(t12, q12)`. -/
def subtractFrameTransforms (t01 : Vec3 F) (q01 : Quat F) (t02 : Vec3 F)
    (q02 : Quat F) : Vec3 F × Quat F :=
  let q10 := Eigen.inverse q01
  let tRel := t02.sub t01
  (Eigen.rotate q10 tRel, Eigen.mul q10 q02)

end

end RlDeploy
