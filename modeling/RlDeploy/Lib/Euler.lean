/-
Euler angles about the axes x, y and z, in this order of factors.

`IsEuler R a b c` says that the angles decompose the matrix `R`, in the
usual ranges. Every rotation has such angles (`exists_euler`). They are
not unique: where the second angle is a quarter turn, only the sum or
the difference of the other two is fixed, and where the first angle is
zero or a half turn, both choices can be had.

# The heading

Turning a rotation back by its third angle `c` leaves a matrix whose
first column starts with `cos c * R 0 0 + sin c * R 1 0` and
`-sin c * R 0 0 + cos c * R 1 0`. `IsHeading` asks that `c` be the
heading: the second of these zero and the first positive. The third
angle of a decomposition in this order need not be that, and
`heading_iff` says when it is: on the entries of the matrix alone where
they fix the sign of `cos b`, and with the first angle where they leave
it open (`thirdIsHeading_level` for an angle that is zero there).
-/
import RlDeploy.Lib.Rotation
import Mathlib.Analysis.SpecialFunctions.Complex.Arg

namespace RlDeploy.Lib

open Matrix Quaternion Real

-- ================================================ elementary rotations

noncomputable def rotX (a : ℝ) : Matrix (Fin 3) (Fin 3) ℝ :=
  !![1, 0, 0; 0, cos a, -sin a; 0, sin a, cos a]

noncomputable def rotY (b : ℝ) : Matrix (Fin 3) (Fin 3) ℝ :=
  !![cos b, 0, sin b; 0, 1, 0; -sin b, 0, cos b]

noncomputable def rotZ (c : ℝ) : Matrix (Fin 3) (Fin 3) ℝ :=
  !![cos c, -sin c, 0; sin c, cos c, 0; 0, 0, 1]

theorem rotXYZ_eq (a b c : ℝ) : rotX a * rotY b * rotZ c
    = !![cos b * cos c, -(cos b * sin c), sin b;
      cos a * sin c + sin a * sin b * cos c,
        cos a * cos c - sin a * sin b * sin c, -(sin a * cos b);
      sin a * sin c - cos a * sin b * cos c,
        sin a * cos c + cos a * sin b * sin c, cos a * cos b] := by
  ext i j
  rw [Matrix.mul_apply, Fin.sum_univ_three, Matrix.mul_apply,
    Matrix.mul_apply, Matrix.mul_apply, Fin.sum_univ_three,
    Fin.sum_univ_three, Fin.sum_univ_three]
  fin_cases i <;> fin_cases j
  all_goals
    simp [rotX, rotY, rotZ]
  all_goals ring

/-- The quaternion of the angle `t` about the last axis. -/
noncomputable def axisZ (t : ℝ) : ℍ[ℝ] :=
  ⟨cos (t / (2 : ℕ)), 0, 0, sin (t / (2 : ℕ))⟩

@[simp] theorem re_axisZ (t : ℝ) :
    (axisZ t).re = cos (t / (2 : ℕ)) := rfl

@[simp] theorem imI_axisZ (t : ℝ) : (axisZ t).imI = 0 := rfl

@[simp] theorem imJ_axisZ (t : ℝ) : (axisZ t).imJ = 0 := rfl

@[simp] theorem imK_axisZ (t : ℝ) :
    (axisZ t).imK = sin (t / (2 : ℕ)) := rfl

theorem normSq_axisZ (t : ℝ) : normSq (axisZ t) = 1 := by
  rw [normSq_eq, re_axisZ, imI_axisZ, imJ_axisZ, imK_axisZ]
  linear_combination sin_sq_add_cos_sq (t / (2 : ℕ))

theorem axisZ_ne_zero (t : ℝ) : axisZ t ≠ 0 := by
  intro h
  have hnorm := normSq_axisZ t
  rw [h, map_zero] at hnorm
  exact zero_ne_one hnorm

theorem axisZ_inv (t : ℝ) : (axisZ t)⁻¹ = axisZ (-t) := by
  rw [Quaternion.inv_def, normSq_axisZ, inv_one, one_smul]
  ext
  all_goals simp [neg_div]

theorem rotMatrix_axisZ (t : ℝ) : rotMatrix (axisZ t) = rotZ t := by
  have ht : (2 : ℝ) * (t / (2 : ℕ)) = t := mul_div_cancel₀ t two_ne_zero
  have hcos := cos_two_mul' (t / (2 : ℕ))
  have hsin := sin_two_mul (t / (2 : ℕ))
  have hone := sin_sq_add_cos_sq (t / (2 : ℕ))
  rw [ht] at hcos hsin
  unfold rotMatrix rotZ
  ext i j
  fin_cases i <;> fin_cases j
  all_goals simp
  · linear_combination -hcos - hone
  · linear_combination -hsin
  · linear_combination -hsin
  · linear_combination -hcos - hone

/-- The angles `a`, `b`, `c` decompose `R`: the first one in the upper
half turn, the others in the full one. -/
structure IsEuler (R : Matrix (Fin 3) (Fin 3) ℝ) (a b c : ℝ) : Prop where
  eq : R = rotX a * rotY b * rotZ c
  nonneg : 0 ≤ a
  le_pi : a ≤ π
  second : -π ≤ b ∧ b ≤ π
  third : -π ≤ c ∧ c ≤ π

-- ==================================================== every rotation

/-- A point of the unit circle has an angle, in the upper half turn if
the point is in the upper half plane. -/
theorem exists_angle {x y : ℝ} (h : x * x + y * y = 1) :
    ∃ t, (-π ≤ t ∧ t ≤ π) ∧ cos t = x ∧ sin t = y ∧ (0 ≤ y → 0 ≤ t) := by
  have hnorm : ‖(⟨x, y⟩ : ℂ)‖ = 1 := by
    rw [Complex.norm_def, Complex.normSq_mk, h, Real.sqrt_one]
  have hne : (⟨x, y⟩ : ℂ) ≠ 0 := by
    rw [← norm_ne_zero_iff, hnorm]
    exact one_ne_zero
  refine ⟨Complex.arg ⟨x, y⟩, ⟨(Complex.neg_pi_lt_arg _).le,
    Complex.arg_le_pi _⟩, ?_, ?_, ?_⟩
  · rw [Complex.cos_arg hne, hnorm, div_one]
  · rw [Complex.sin_arg, hnorm, div_one]
  · intro hy
    exact Complex.arg_nonneg_iff.mpr hy

section Every

variable {R : Matrix (Fin 3) (Fin 3) ℝ} {a b c : ℝ}

/-- Where the second angle is no quarter turn, the first row and the
last column decide the rotation. -/
theorem eq_of_ne_zero (e : IsRotation.Entries R) (hb : cos b ≠ 0)
    (h00 : R 0 0 = cos b * cos c) (h01 : R 0 1 = -(cos b * sin c))
    (h02 : R 0 2 = sin b) (h12 : R 1 2 = -(sin a * cos b))
    (h22 : R 2 2 = cos a * cos b) : R = rotX a * rotY b * rotZ c := by
  have hc := sin_sq_add_cos_sq c
  have hbb := sin_sq_add_cos_sq b
  have hdot := e.dot
  have htwo := e.minor_two
  rw [h00, h01, h02, h12] at hdot
  rw [h00, h01, h22] at htwo
  -- two equations for the two entries that are left of the second row
  have hdot' : cos c * R 1 0 - sin c * R 1 1 = sin a * sin b := by
    apply mul_left_cancel₀ hb
    linear_combination hdot
  have htwo' : sin c * R 1 0 + cos c * R 1 1 = cos a := by
    apply mul_left_cancel₀ hb
    linear_combination -htwo
  have h10 : R 1 0 = cos a * sin c + sin a * sin b * cos c := by
    linear_combination cos c * hdot' + sin c * htwo' - R 1 0 * hc
  have h11 : R 1 1 = cos a * cos c - sin a * sin b * sin c := by
    linear_combination cos c * htwo' - sin c * hdot' - R 1 1 * hc
  have h20 : R 2 0 = sin a * sin c - cos a * sin b * cos c := by
    rw [e.minor_zero, h01, h12, h02, h11]
    linear_combination sin a * sin c * hbb
  have h21 : R 2 1 = sin a * cos c + cos a * sin b * sin c := by
    rw [e.minor_one, h02, h10, h00, h12]
    linear_combination sin a * cos c * hbb
  rw [rotXYZ_eq]
  ext i j
  fin_cases i <;> fin_cases j
  · exact h00
  · exact h01
  · exact h02
  · exact h10
  · exact h11
  · exact h12
  · exact h20
  · exact h21
  · exact h22

/-- A rotation whose second row ends with zero has a decomposition that
starts from the angle zero. -/
theorem exists_euler_level (e : IsRotation.Entries R)
    (h12 : R 1 2 = 0) : ∃ b c, IsEuler R 0 b c := by
  have hcol := e.col
  have hnext := e.row_next
  have hdot := e.dot
  have htwo := e.minor_two
  rw [h12] at hcol hnext hdot
  obtain ⟨b, hb, hcosb, hsinb, -⟩ := exists_angle
    (show R 2 2 * R 2 2 + R 0 2 * R 0 2 = 1 by linear_combination hcol)
  obtain ⟨c, hc, hcosc, hsinc, -⟩ := exists_angle
    (show R 1 1 * R 1 1 + R 1 0 * R 1 0 = 1 by linear_combination hnext)
  -- two equations for the two entries that are left of the first row
  have h00 : R 0 0 = R 2 2 * R 1 1 := by
    linear_combination -R 1 1 * htwo + R 1 0 * hdot - R 0 0 * hnext
  have h01 : R 0 1 = -(R 2 2 * R 1 0) := by
    linear_combination R 1 0 * htwo + R 1 1 * hdot - R 0 1 * hnext
  have h20 := e.minor_zero
  have h21 := e.minor_one
  rw [h12] at h20 h21
  refine ⟨b, c, ?_, le_rfl, pi_pos.le, hb, hc⟩
  rw [rotXYZ_eq, sin_zero, cos_zero, hcosb, hsinb, hcosc, hsinc]
  ext i j
  fin_cases i <;> fin_cases j
  all_goals simp
  · exact h00
  · exact h01
  · exact h12
  · linear_combination h20
  · linear_combination h21

/-- Every rotation has angles. The sign of `cos b` is the one that puts
the first angle into the upper half turn. -/
theorem exists_euler (h : IsRotation R) : ∃ a b c, IsEuler R a b c := by
  have e := h.entries
  by_cases h12 : R 1 2 = 0
  case pos => exact ⟨0, exists_euler_level e h12⟩
  have hρ : R 0 0 * R 0 0 + R 0 1 * R 0 1 ≠ 0 := by
    intro hρ
    have hrest : R 1 2 * R 1 2 + R 2 2 * R 2 2 = 0 := by
      linear_combination e.col - e.row + hρ
    exact h12 (mul_self_add_mul_self_eq_zero.mp hrest).1
  -- `k` is to be `cos b`
  have hpos : 0 < R 0 0 * R 0 0 + R 0 1 * R 0 1 :=
    lt_of_le_of_ne (add_nonneg (mul_self_nonneg _) (mul_self_nonneg _))
      (Ne.symm hρ)
  obtain ⟨k, hkk, hsign⟩ : ∃ k, k * k = R 0 0 * R 0 0 + R 0 1 * R 0 1
      ∧ 0 ≤ -R 1 2 / k := by
    have hsqrt := Real.mul_self_sqrt hpos.le
    by_cases h12 : R 1 2 ≤ 0
    · refine ⟨√(R 0 0 * R 0 0 + R 0 1 * R 0 1), hsqrt, ?_⟩
      exact div_nonneg (neg_nonneg.mpr h12) (Real.sqrt_nonneg _)
    · refine ⟨-√(R 0 0 * R 0 0 + R 0 1 * R 0 1), ?_, ?_⟩
      · rw [neg_mul_neg, hsqrt]
      · rw [neg_div_neg_eq]
        exact div_nonneg (not_le.mp h12).le (Real.sqrt_nonneg _)
  have hk : k ≠ 0 := by
    rintro rfl
    exact hρ (by rw [← hkk, zero_mul])
  obtain ⟨b, hb, hcosb, hsinb, -⟩ := exists_angle
    (show k * k + R 0 2 * R 0 2 = 1 by rw [hkk]; exact e.row)
  obtain ⟨c, hc, hcosc, hsinc, -⟩ := exists_angle
    (show R 0 0 / k * (R 0 0 / k) + -R 0 1 / k * (-R 0 1 / k) = 1 by
      field_simp
      linear_combination -hkk)
  obtain ⟨a, ha, hcosa, hsina, hupper⟩ := exists_angle
    (show R 2 2 / k * (R 2 2 / k) + -R 1 2 / k * (-R 1 2 / k) = 1 by
      field_simp
      linear_combination e.col - e.row - hkk)
  refine ⟨a, b, c, ?_, hupper hsign, ha.2, hb, hc⟩
  apply eq_of_ne_zero e
  · rw [hcosb]
    exact hk
  · rw [hcosb, hcosc, mul_div_cancel₀ _ hk]
  · rw [hcosb, hsinc, mul_div_cancel₀ _ hk, neg_neg]
  · exact hsinb.symm
  · rw [hcosb, hsina, div_mul_cancel₀ _ hk, neg_neg]
  · rw [hcosb, hcosa, div_mul_cancel₀ _ hk]

end Every

-- ========================================================= the heading

/-- Turned back by `c`, the rotation keeps its first column over the
positive first axis. -/
structure IsHeading (R : Matrix (Fin 3) (Fin 3) ℝ) (c : ℝ) : Prop where
  sideways : (rotZ (-c) * R) 1 0 = 0
  forward : 0 < (rotZ (-c) * R) 0 0

/-- Where the third angle is the heading, for the first angle `a`. -/
inductive ThirdIsHeading (R : Matrix (Fin 3) (Fin 3) ℝ) (a : ℝ) : Prop
  /-- The entry `R 1 2` fixes the sign of `cos b`. -/
  | rolled (h : R 1 2 ≠ 0) (hzero : R 0 0 * (R 0 1 + R 1 0) = 0)
      (hneg : R 1 2 * (R 0 0 * R 0 0 - R 0 1 * R 1 0) < 0)
  /-- Without roll, `a` is zero or a half turn and decides it. -/
  | level (h : R 1 2 = 0) (h' : R 2 2 ≠ 0)
      (hzero : R 0 0 * (R 0 1 + R 1 0) = 0)
      (hpos : 0 < cos a * R 2 2 * (R 0 0 * R 0 0 - R 0 1 * R 1 0))
  /-- With the second angle a quarter turn, `a` can be any angle. -/
  | gimbal (h : R 1 2 = 0) (h' : R 2 2 = 0)
      (hzero : cos a * R 1 1 + sin a * R 0 2 * R 1 0 = 0)
      (hpos : 0 < cos a)

/-- The same for a decomposition that starts from zero where it can: a
condition on the matrix alone. -/
inductive LevelHeading (R : Matrix (Fin 3) (Fin 3) ℝ) : Prop
  | rolled (h : R 1 2 ≠ 0) (hzero : R 0 0 * (R 0 1 + R 1 0) = 0)
      (hneg : R 1 2 * (R 0 0 * R 0 0 - R 0 1 * R 1 0) < 0)
  | level (h : R 1 2 = 0) (h' : R 2 2 ≠ 0)
      (hzero : R 0 0 * (R 0 1 + R 1 0) = 0)
      (hpos : 0 < R 2 2 * (R 0 0 * R 0 0 - R 0 1 * R 1 0))
  | gimbal (h : R 1 2 = 0) (h' : R 2 2 = 0) (hzero : R 1 1 = 0)

section Heading

variable {R : Matrix (Fin 3) (Fin 3) ℝ} {a b c : ℝ}

theorem thirdIsHeading_level (ha : R 1 2 = 0 → a = 0) :
    ThirdIsHeading R a ↔ LevelHeading R := by
  constructor
  · intro hthird
    cases hthird with
    | rolled h hzero hneg => exact .rolled h hzero hneg
    | level h h' hzero hpos =>
        rw [ha h, cos_zero, one_mul] at hpos
        exact .level h h' hzero hpos
    | gimbal h h' hzero hpos =>
        rw [ha h, cos_zero, sin_zero, one_mul, zero_mul, zero_mul,
          add_zero] at hzero
        exact .gimbal h h' hzero
  · intro hlevel
    cases hlevel with
    | rolled h hzero hneg => exact .rolled h hzero hneg
    | level h h' hzero hpos =>
        refine .level h h' hzero ?_
        rwa [ha h, cos_zero, one_mul]
    | gimbal h h' hzero =>
        refine .gimbal h h' ?_ ?_
        · rw [ha h, hzero, sin_zero, mul_zero, zero_mul, zero_mul, add_zero]
        · rw [ha h, cos_zero]
          exact one_pos

theorem isHeading_iff : IsHeading R c
    ↔ (rotZ (-c) * R) 1 0 = 0 ∧ 0 < (rotZ (-c) * R) 0 0 :=
  ⟨fun h => ⟨h.sideways, h.forward⟩, fun h => ⟨h.1, h.2⟩⟩

/-- The first column, turned back by `c`. -/
theorem turned_zero : (rotZ (-c) * R) 0 0
    = cos c * R 0 0 + sin c * R 1 0 := by
  rw [Matrix.mul_apply, Fin.sum_univ_three]
  simp [rotZ]

theorem turned_one : (rotZ (-c) * R) 1 0
    = cos c * R 1 0 - sin c * R 0 0 := by
  rw [Matrix.mul_apply, Fin.sum_univ_three]
  simp [rotZ]
  ring

/-- The entries the heading depends on, by the angles. -/
structure IsEuler.Entries (R : Matrix (Fin 3) (Fin 3) ℝ) (a b c : ℝ) :
    Prop where
  zero_zero : R 0 0 = cos b * cos c
  zero_one : R 0 1 = -(cos b * sin c)
  zero_two : R 0 2 = sin b
  one_zero : R 1 0 = cos a * sin c + sin a * sin b * cos c
  one_one : R 1 1 = cos a * cos c - sin a * sin b * sin c
  one_two : R 1 2 = -(sin a * cos b)
  two_two : R 2 2 = cos a * cos b

theorem IsEuler.entries (h : IsEuler R a b c) :
    IsEuler.Entries R a b c := by
  have he := h.eq
  rw [rotXYZ_eq] at he
  rw [he]
  exact ⟨rfl, rfl, rfl, rfl, rfl, rfl, rfl⟩

/-- Away from the quarter turn, the signs of `cos b` and of the first
entry of the turned column decide, and the entries know their
product. -/
theorem heading_of_cos (e : IsEuler.Entries R a b c) (hb : cos b ≠ 0) :
    IsHeading R c ↔ R 0 0 * (R 0 1 + R 1 0) = 0
      ∧ 0 < cos b * (R 0 0 * R 0 0 - R 0 1 * R 1 0) := by
  have hzero : cos b * (cos c * R 1 0 - sin c * R 0 0)
      = R 0 0 * (R 0 1 + R 1 0) := by
    rw [e.zero_one, mul_add]
    linear_combination -R 1 0 * e.zero_zero
  have hpos : cos b * (R 0 0 * R 0 0 - R 0 1 * R 1 0)
      = cos b * cos b * (cos c * R 0 0 + sin c * R 1 0) := by
    rw [e.zero_one]
    linear_combination cos b * R 0 0 * e.zero_zero
  have hbb : 0 < cos b * cos b := mul_self_pos.mpr hb
  rw [isHeading_iff, turned_zero, turned_one, ← hzero, hpos,
    mul_eq_zero_iff_left hb, mul_pos_iff_of_pos_left hbb]

/-- At the quarter turn the column is `R 1 0` times the sine and the
cosine of the third angle. -/
theorem heading_of_gimbal (e : IsEuler.Entries R a b c) (hb : cos b = 0)
    (hx : ¬(R 0 0 = 0 ∧ R 1 0 = 0)) :
    IsHeading R c
      ↔ cos a * R 1 1 + sin a * R 0 2 * R 1 0 = 0 ∧ 0 < cos a := by
  have h00 : R 0 0 = 0 := by rw [e.zero_zero, hb, zero_mul]
  have h10 : R 1 0 ≠ 0 := fun h => hx ⟨h00, h⟩
  have hbb := sin_sq_add_cos_sq b
  rw [hb] at hbb
  have hcos : cos a * R 1 1 + sin a * R 0 2 * R 1 0 = cos c := by
    rw [e.one_one, e.zero_two, e.one_zero]
    linear_combination sin a ^ 2 * cos c * hbb
      + cos c * sin_sq_add_cos_sq a
  rw [isHeading_iff, turned_zero, turned_one, h00, mul_zero, mul_zero,
    sub_zero, zero_add, hcos, mul_eq_zero_iff_right h10]
  apply and_congr_right
  intro hc
  -- the sine of the third angle is one in size, so it cancels
  have hsin : sin c * R 1 0 = cos a := by
    have hcc := sin_sq_add_cos_sq c
    rw [hc] at hcc
    rw [e.one_zero, hc]
    linear_combination cos a * hcc
  rw [hsin]

/-- The third angle of a rotation whose first column is not vertical is
its heading in these cases, and in no others. -/
theorem heading_iff (h : IsEuler R a b c)
    (hx : ¬(R 0 0 = 0 ∧ R 1 0 = 0)) :
    IsHeading R c ↔ ThirdIsHeading R a := by
  have e := h.entries
  have h12 := e.one_two
  have h22 := e.two_two
  by_cases hb : cos b = 0
  · have h12' : R 1 2 = 0 := by rw [h12, hb, mul_zero, neg_zero]
    have h22' : R 2 2 = 0 := by rw [h22, hb, mul_zero]
    rw [heading_of_gimbal e hb hx]
    constructor
    · rintro ⟨hzero, hpos⟩
      exact .gimbal h12' h22' hzero hpos
    · intro hthird
      cases hthird with
      | rolled h' => exact absurd h12' h'
      | level _ h' => exact absurd h22' h'
      | gimbal _ _ hzero hpos => exact ⟨hzero, hpos⟩
  · have hbb : 0 < cos b * cos b := mul_self_pos.mpr hb
    rw [heading_of_cos e hb]
    by_cases ha : sin a = 0
    · -- without roll: `cos a` is one in size
      have h12' : R 1 2 = 0 := by rw [h12, ha, zero_mul, neg_zero]
      have haa := sin_sq_add_cos_sq a
      rw [ha] at haa
      have hca : cos a ≠ 0 := by
        intro hca
        rw [hca] at haa
        norm_num at haa
      have h22' : R 2 2 ≠ 0 := by
        rw [h22]
        exact mul_ne_zero hca hb
      have hsign : cos a * R 2 2 = cos b := by
        rw [h22]
        linear_combination cos b * haa
      rw [← hsign]
      constructor
      · rintro ⟨hzero, hpos⟩
        exact .level h12' h22' hzero hpos
      · intro hthird
        cases hthird with
        | rolled h' => exact absurd h12' h'
        | level _ _ hzero hpos => exact ⟨hzero, hpos⟩
        | gimbal _ h' => exact absurd h' h22'
    · -- with roll: `sin a` is positive in the upper half turn
      have hsin : 0 < sin a :=
        lt_of_le_of_ne (sin_nonneg_of_nonneg_of_le_pi h.nonneg h.le_pi)
          (Ne.symm ha)
      have h12' : R 1 2 ≠ 0 := by
        rw [h12]
        exact neg_ne_zero.mpr (mul_ne_zero ha hb)
      have hsign : ∀ x, R 1 2 * x < 0 ↔ 0 < cos b * x := by
        intro x
        have hx : R 1 2 * x = -(sin a * (cos b * x)) := by
          rw [h12]
          ring
        rw [hx, neg_neg_iff_pos, mul_pos_iff_of_pos_left hsin]
      rw [← hsign]
      constructor
      · rintro ⟨hzero, hneg⟩
        exact .rolled h12' hzero hneg
      · intro hthird
        cases hthird with
        | rolled _ hzero hneg => exact ⟨hzero, hneg⟩
        | level h' => exact absurd h' h12'
        | gimbal h' => exact absurd h' h12'

end Heading

end RlDeploy.Lib
