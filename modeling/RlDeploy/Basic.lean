/-
The vocabulary every layer of the model shares: the arithmetic, the ways
a C++ step can go wrong, and the data that arrives on and leaves by the
ROS topics.

# Arithmetic

The source computes in `float` and its messages carry `double`. The
model is generic in both (`Scalar F D`): nothing is assumed of the
operations, so a result stated over an arbitrary `Scalar` holds of the
machine's own floats, rounding and special values included. Results that
need exact arithmetic are stated over `ℚ`, those about special values
over the extended rationals.

# Faults

An index past the end of a `std::vector` has no defined behaviour. The
model stops there with the vector's name, so that "never indexes outside
`joint_vel`" is a statement on the outcome.
-/
import RlDeploy.Lib.Loop

namespace RlDeploy

-- ======================================================== arithmetic

/-- The `float` operations the source uses, with its conversions from
and to the `double` of the messages. -/
class Scalar (F : Type) (D : outParam Type) extends
    Add F, Sub F, Mul F, Neg F, Zero F, One F where
  /-- The comparison `a < b`. -/
  lt : F → F → Bool
  /-- A float literal, and the cast of an integer. -/
  ofRat : ℚ → F
  /-- `static_cast<float>` of a double. -/
  narrow : D → F
  /-- The implicit conversion of a float to a double. -/
  widen : F → D
  /-- The literal `0.0` as a double. -/
  zeroD : D

/-- Exact arithmetic: every conversion is the identity. -/
instance : Scalar ℚ ℚ where
  lt a b := decide (a < b)
  ofRat q := q
  narrow q := q
  widen q := q
  zeroD := 0

/-- `std::clamp(v, lo, hi)`. -/
def clamp {F D : Type} [Scalar F D] (v lo hi : F) : F :=
  if Scalar.lt v lo then lo else if Scalar.lt hi v then hi else v

-- ============================================================ faults

/-- The vectors the source indexes without a bounds check. -/
inductive Vec
  | jointPos
  | jointVel
  | bodyPosW
  | bodyQuatW
  | dofPosModel
  | dofVelModel
  | defaultDofPos
  | lastAction
  | rawAction
  | smoothed
  | actionScales
  | scaledAction
  | fitResult
  | inputNames
  | shape
  | tensorData
  deriving DecidableEq, Repr

/-- The exceptions the source lets pass or catches. -/
inductive Exn
  /-- `Ort::Exception`. -/
  | ort
  /-- `YAML::Exception`. -/
  | yaml
  /-- `std::invalid_argument` or `std::out_of_range` of `std::stof`. -/
  | stof
  deriving DecidableEq, Repr

/-- How a step of the source stops short. -/
inductive Fault
  /-- An index past the end of the vector. -/
  | index (v : Vec)
  | throw (e : Exn)
  deriving DecidableEq, Repr

-- ====================================================== small vectors

/-- `Eigen::Vector3f`. -/
structure Vec3 (F : Type) where
  x : F
  y : F
  z : F
  deriving DecidableEq, Repr

/-- `Eigen::Quaternionf`, in the order of its constructor. -/
structure Quat (F : Type) where
  w : F
  x : F
  y : F
  z : F
  deriving DecidableEq, Repr

/-- `Eigen::Matrix3f`, by rows. -/
structure Mat3 (F : Type) where
  row0 : Vec3 F
  row1 : Vec3 F
  row2 : Vec3 F
  deriving DecidableEq, Repr

-- ========================================================== messages

/-- `sensor_msgs/JointState` without its header. -/
structure JointState (D : Type) where
  name : List String := []
  position : List D := []
  velocity : List D := []
  effort : List D := []
  deriving DecidableEq, Repr

/-- The fields of `sensor_msgs/Imu` that the node reads. -/
structure Imu (D : Type) where
  orientation : Quat D
  angularVelocity : Vec3 D
  deriving DecidableEq, Repr

end RlDeploy
