/-
The geometry behind the Eigen operations, over the real numbers.

The model's vectors, quaternions and matrices are records of
coefficients. Here they are read as what they stand for: a quaternion of
Mathlib, a quaternion without real part, a matrix. `Eigen.Usual` says
what the operations are in these terms, as far as Eigen documents it,
and `Eigen.Angles` what its Euler angles are. Results that need exact
geometry take these as hypotheses over an arbitrary `Eigen ℝ`, so they
do not depend on how the library computes.

# The rotation of a vector

Eigen rotates by a polynomial that is the rotation at unit norm only.
`Eigen.Usual` promises no more than that.

# An instance

The formulas of `Eigen.formulas` with the half angle about the z axis
are as usual (`usual_formulas`). Angles can be chosen, since every
rotation has some.
-/
import RlDeploy.Eigen
import RlDeploy.Lib.Euler

namespace RlDeploy

open Lib Quaternion

-- ==================================================== exact arithmetic

open Classical in
/-- Exact arithmetic over the reals: every conversion is the identity. -/
noncomputable instance : Scalar ℝ ℝ where
  lt a b := decide (a < b)
  ofRat q := q
  narrow x := x
  widen x := x
  zeroD := 0

-- ============================================== records as what they are

namespace Quat

def toQuaternion (q : Quat ℝ) : ℍ[ℝ] := ⟨q.w, q.x, q.y, q.z⟩

@[simp] theorem re_toQuaternion (q : Quat ℝ) :
    q.toQuaternion.re = q.w := rfl

@[simp] theorem imI_toQuaternion (q : Quat ℝ) :
    q.toQuaternion.imI = q.x := rfl

@[simp] theorem imJ_toQuaternion (q : Quat ℝ) :
    q.toQuaternion.imJ = q.y := rfl

@[simp] theorem imK_toQuaternion (q : Quat ℝ) :
    q.toQuaternion.imK = q.z := rfl

theorem toQuaternion_inj {p q : Quat ℝ} :
    p.toQuaternion = q.toQuaternion ↔ p = q := by
  constructor
  · intro h
    cases p
    cases q
    cases h
    rfl
  · intro h
    rw [h]

/-- A quaternion of norm one. -/
def Unit (q : Quat ℝ) : Prop := normSq q.toQuaternion = 1

theorem Unit.ne_zero {q : Quat ℝ} (h : q.Unit) : q.toQuaternion ≠ 0 := by
  intro h0
  unfold Unit at h
  rw [h0, map_zero] at h
  exact zero_ne_one h

end Quat

namespace Vec3

/-- A vector as a quaternion without real part. -/
def toQuaternion (v : Vec3 ℝ) : ℍ[ℝ] := ⟨0, v.x, v.y, v.z⟩

@[simp] theorem re_toQuaternion (v : Vec3 ℝ) :
    v.toQuaternion.re = 0 := rfl

@[simp] theorem imI_toQuaternion (v : Vec3 ℝ) :
    v.toQuaternion.imI = v.x := rfl

@[simp] theorem imJ_toQuaternion (v : Vec3 ℝ) :
    v.toQuaternion.imJ = v.y := rfl

@[simp] theorem imK_toQuaternion (v : Vec3 ℝ) :
    v.toQuaternion.imK = v.z := rfl

theorem toQuaternion_inj {v w : Vec3 ℝ} :
    v.toQuaternion = w.toQuaternion ↔ v = w := by
  constructor
  · intro h
    cases v
    cases w
    cases h
    rfl
  · intro h
    rw [h]

theorem toQuaternion_sub (v w : Vec3 ℝ) :
    (v.sub w).toQuaternion = v.toQuaternion - w.toQuaternion := by
  ext
  · exact (sub_zero 0).symm
  · rfl
  · rfl
  · rfl

end Vec3

/-- A matrix record as a matrix. -/
def Mat3.toMatrix (m : Mat3 ℝ) : Matrix (Fin 3) (Fin 3) ℝ :=
  !![m.row0.x, m.row0.y, m.row0.z;
    m.row1.x, m.row1.y, m.row1.z;
    m.row2.x, m.row2.y, m.row2.z]

-- ================================================= what Eigen promises

/-- The quaternion operations are the usual ones. -/
structure Eigen.Usual [Eigen ℝ] : Prop where
  inverse : ∀ q : Quat ℝ,
    (Eigen.inverse q).toQuaternion = q.toQuaternion⁻¹
  mul : ∀ p q : Quat ℝ,
    (Eigen.mul p q).toQuaternion = p.toQuaternion * q.toQuaternion
  rotate : ∀ (q : Quat ℝ) (v : Vec3 ℝ), q.Unit →
    (Eigen.rotate q v).toQuaternion
      = q.toQuaternion * v.toQuaternion * q.toQuaternion⁻¹
  toRotationMatrix : ∀ q : Quat ℝ,
    (Eigen.toRotationMatrix q).toMatrix = rotMatrix q.toQuaternion
  angleAxisZ : ∀ t : ℝ, (Eigen.angleAxisZ t).toQuaternion = axisZ t

/-- `eulerAngles(0, 1, 2)` decomposes a rotation. -/
def Eigen.Angles [Eigen ℝ] : Prop :=
  ∀ m : Mat3 ℝ, IsRotation m.toMatrix →
    IsEuler m.toMatrix (Eigen.eulerAngles m).x (Eigen.eulerAngles m).y
      (Eigen.eulerAngles m).z

/-- Where the first angle is not fixed, `eulerAngles` starts from zero. A
rotation has such angles (`exists_euler_level`). -/
def Eigen.StartsLevel [Eigen ℝ] : Prop :=
  ∀ m : Mat3 ℝ, IsRotation m.toMatrix → m.row1.z = 0 →
    (Eigen.eulerAngles m).x = 0

namespace Eigen.Usual

variable [Eigen ℝ]

theorem inverse_unit (hE : Eigen.Usual) {q : Quat ℝ} (h : q.Unit) :
    (Eigen.inverse q).Unit := by
  unfold Quat.Unit at h ⊢
  rw [hE.inverse, normSq_inv, h, inv_one]

theorem mul_unit (hE : Eigen.Usual) {p q : Quat ℝ} (hp : p.Unit)
    (hq : q.Unit) : (Eigen.mul p q).Unit := by
  unfold Quat.Unit at hp hq ⊢
  rw [hE.mul, map_mul, hp, hq, one_mul]

theorem angleAxisZ_unit (hE : Eigen.Usual) (t : ℝ) :
    (Eigen.angleAxisZ t : Quat ℝ).Unit := by
  unfold Quat.Unit
  rw [hE.angleAxisZ, normSq_axisZ]

/-- Every base that `setBase` stores has norm one if the pose has. -/
theorem setBase_unit (hE : Eigen.Usual) {quat : Quat ℝ} (h : quat.Unit)
    (pos : Vec3 ℝ) (yawOnly xyOnly : Bool) :
    (TransformAlignment.setBase quat pos yawOnly xyOnly).rBase.Unit := by
  cases yawOnly with
  | true => exact hE.angleAxisZ_unit _
  | false => exact h

end Eigen.Usual

-- ========================================================= an instance

/-- The quaternion record of an angle about the z axis. -/
noncomputable def Quat.axisZ (t : ℝ) : Quat ℝ :=
  ⟨Real.cos (t / (2 : ℕ)), 0, 0, Real.sin (t / (2 : ℕ))⟩

/-- Some angles of a matrix, where it has any. -/
noncomputable def Mat3.angles (m : Mat3 ℝ) : Vec3 ℝ :=
  have : Nonempty (Vec3 ℝ) := ⟨Vec3.zero⟩
  Classical.epsilon fun v => IsEuler m.toMatrix v.x v.y v.z

noncomputable instance : Eigen ℝ :=
  Eigen.formulas Mat3.angles Quat.axisZ

theorem usual_formulas : Eigen.Usual := by
  refine ⟨?_, ?_, ?_, ?_, ?_⟩
  · intro q
    rw [inv_def, normSq_eq]
    ext
    all_goals
      simp [Eigen.inverse]
      ring
  · intro p q
    ext
    all_goals simp [Eigen.mul]
    all_goals ring
  · intro q v h
    unfold Quat.Unit at h
    rw [inv_def, h, inv_one, one_smul]
    simp only [normSq_eq, Quat.re_toQuaternion, Quat.imI_toQuaternion,
      Quat.imJ_toQuaternion, Quat.imK_toQuaternion] at h
    -- the polynomial is off by the vector times the norm's defect
    ext
    · simp [Eigen.rotate]
      ring
    · simp [Eigen.rotate]
      linear_combination -v.x * h
    · simp [Eigen.rotate]
      linear_combination -v.y * h
    · simp [Eigen.rotate]
      linear_combination -v.z * h
  · intro q
    ext i j
    fin_cases i <;> fin_cases j
    all_goals simp [Mat3.toMatrix, Eigen.toRotationMatrix, rotMatrix]
    all_goals ring
  · intro t
    rfl

theorem angles_formulas : Eigen.Angles := by
  intro m h
  obtain ⟨a, b, c, habc⟩ := exists_euler h
  have hex : ∃ v : Vec3 ℝ, IsEuler m.toMatrix v.x v.y v.z :=
    ⟨⟨a, b, c⟩, habc⟩
  exact Classical.epsilon_spec hex

/-- A pose with roll alone, one way and the other. -/
noncomputable def Quat.rolledLeft : Quat ℝ := ⟨4 / 5, 3 / 5, 0, 0⟩

noncomputable def Quat.rolledRight : Quat ℝ := ⟨4 / 5, -3 / 5, 0, 0⟩

theorem Quat.rolledLeft_unit : Quat.rolledLeft.Unit := by
  unfold Quat.Unit
  rw [normSq_eq]
  norm_num [Quat.rolledLeft]

theorem Quat.rolledRight_unit : Quat.rolledRight.Unit := by
  unfold Quat.Unit
  rw [normSq_eq]
  norm_num [Quat.rolledRight]

end RlDeploy
