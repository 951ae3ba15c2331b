/-
Quaternions as rotations, by their matrix.

`rotMatrix` is the matrix of a quaternion by the usual polynomial
formula. It does not normalise, so its results come in two kinds.

# On unit quaternions

The matrix is a rotation (`rotMatrix_isRotation`): its columns are
orthonormal and right-handed (`rotMatrix_orthonormal`,
`rotMatrix_cross`). Products go to products (`rotMatrix_mul`), and two
quaternions have one matrix only if they are equal up to sign. Two of
the three columns already decide that (`columns_eq_iff`): the third one
is their cross product, and from all entries the products of any two
components can be read back (`product_eq`). Then the scalar product of
the two quaternions squares to one, so that one of their sum and
difference is zero. No component has to be singled out as the one that
is not zero.

# On all quaternions

A factor on the quaternion enters the matrix squared, but not the ones
on its diagonal. So the columns stay orthonormal, or stay as they are
under a factor, only where the square is one or there is no rotation to
begin with (`orthonormal_iff`, `columns_smul_iff`).
-/
import Mathlib.Algebra.Quaternion
import Mathlib.LinearAlgebra.CrossProduct
import Mathlib.Tactic

namespace RlDeploy.Lib

open Quaternion Matrix

variable {K : Type} [Field K]

/-- The matrix of a quaternion. -/
def rotMatrix (q : ℍ[K]) : Matrix (Fin 3) (Fin 3) K :=
  !![1 - 2 • (q.imJ * q.imJ + q.imK * q.imK),
      2 • (q.imI * q.imJ - q.re * q.imK),
      2 • (q.imI * q.imK + q.re * q.imJ);
    2 • (q.imI * q.imJ + q.re * q.imK),
      1 - 2 • (q.imI * q.imI + q.imK * q.imK),
      2 • (q.imJ * q.imK - q.re * q.imI);
    2 • (q.imI * q.imK - q.re * q.imJ),
      2 • (q.imJ * q.imK + q.re * q.imI),
      1 - 2 • (q.imI * q.imI + q.imJ * q.imJ)]

/-- Two vectors of length one at a right angle. -/
structure Orthonormal (u v : Fin 3 → K) : Prop where
  left : u ⬝ᵥ u = 1
  right : v ⬝ᵥ v = 1
  orthogonal : u ⬝ᵥ v = 0

/-- The square of the norm, by components. -/
theorem normSq_eq (q : ℍ[K]) :
    normSq q = q.re * q.re + q.imI * q.imI + q.imJ * q.imJ
      + q.imK * q.imK := by
  rw [normSq_def']
  ring

-- ==================================================== signs, factors

section Sign

variable {A : Type} [DivisionRing A] {a a' b b' : A}

/-- Two elements that are equal or opposite. -/
def SameUpToSign (a b : A) : Prop := a = b ∨ a = -b

theorem SameUpToSign.mul (ha : SameUpToSign a a')
    (hb : SameUpToSign b b') : SameUpToSign (a * b) (a' * b') := by
  rcases ha with rfl | rfl
  · rcases hb with rfl | rfl
    · exact Or.inl rfl
    · exact Or.inr (mul_neg a b')
  · rcases hb with rfl | rfl
    · exact Or.inr (neg_mul a' b)
    · exact Or.inl (neg_mul_neg a' b')

theorem SameUpToSign.inv (ha : SameUpToSign a a') :
    SameUpToSign a⁻¹ a'⁻¹ := by
  rcases ha with rfl | rfl
  · exact Or.inl rfl
  · exact Or.inr inv_neg

end Sign

/-- A factor on a quaternion is its inverse on the inverse. -/
theorem smul_inverse [LinearOrder K] [IsStrictOrderedRing K] (c : K)
    (q : ℍ[K]) : (c • q)⁻¹ = c⁻¹ • q⁻¹ := by
  rw [Quaternion.inv_def, Quaternion.inv_def, normSq_smul,
    Quaternion.star_smul, smul_smul, smul_smul]
  by_cases hc : c = 0
  · simp [hc]
  · congr 1
    field_simp

/-- Factors on both sides of a quotient are one on the quotient. -/
theorem smul_quotient [LinearOrder K] [IsStrictOrderedRing K] (c d : K)
    (p b q : ℍ[K]) : (c • p)⁻¹ * (b * d • q)
      = (c⁻¹ * d) • (p⁻¹ * (b * q)) := by
  rw [smul_inverse, Algebra.mul_smul_comm, Algebra.smul_mul_assoc,
    Algebra.mul_smul_comm, smul_smul]

-- ====================================================== the columns

section Columns

variable (q : ℍ[K])

theorem col_zero_dot : (rotMatrix q).col 0 ⬝ᵥ (rotMatrix q).col 0
    = 1 + 4 * (q.imJ * q.imJ + q.imK * q.imK) * (normSq q - 1) := by
  rw [vec3_dotProduct, normSq_eq]
  simp [rotMatrix]
  ring

theorem col_one_dot : (rotMatrix q).col 1 ⬝ᵥ (rotMatrix q).col 1
    = 1 + 4 * (q.imI * q.imI + q.imK * q.imK) * (normSq q - 1) := by
  rw [vec3_dotProduct, normSq_eq]
  simp [rotMatrix]
  ring

theorem col_dot : (rotMatrix q).col 0 ⬝ᵥ (rotMatrix q).col 1
    = 4 * (q.imI * q.imJ) * (1 - normSq q) := by
  rw [vec3_dotProduct, normSq_eq]
  simp [rotMatrix]
  ring

variable {q}

/-- The columns of a rotation are orthonormal. -/
theorem rotMatrix_orthonormal (h : normSq q = 1) :
    Orthonormal ((rotMatrix q).col 0) ((rotMatrix q).col 1) := by
  refine ⟨?_, ?_, ?_⟩
  · rw [col_zero_dot, h]
    ring
  · rw [col_one_dot, h]
    ring
  · rw [col_dot, h]
    ring

/-- The third one is the cross product of the first two. -/
theorem rotMatrix_cross (h : normSq q = 1) :
    crossProduct ((rotMatrix q).col 0) ((rotMatrix q).col 1)
      = (rotMatrix q).col 2 := by
  rw [normSq_eq] at h
  rw [cross_apply]
  ext i
  fin_cases i
  · simp [rotMatrix]
    linear_combination 4 * q.imI * q.imK * h
  · simp [rotMatrix]
    linear_combination 4 * q.imJ * q.imK * h
  · simp [rotMatrix]
    linear_combination 4 * q.imK * q.imK * h

end Columns

-- ============================================ products go to products

section Product

/-- The matrix of a unit quaternion by quadratic terms alone. -/
def homMatrix (q : ℍ[K]) : Matrix (Fin 3) (Fin 3) K :=
  !![q.re * q.re + q.imI * q.imI - q.imJ * q.imJ - q.imK * q.imK,
      2 • (q.imI * q.imJ - q.re * q.imK),
      2 • (q.imI * q.imK + q.re * q.imJ);
    2 • (q.imI * q.imJ + q.re * q.imK),
      q.re * q.re - q.imI * q.imI + q.imJ * q.imJ - q.imK * q.imK,
      2 • (q.imJ * q.imK - q.re * q.imI);
    2 • (q.imI * q.imK - q.re * q.imJ),
      2 • (q.imJ * q.imK + q.re * q.imI),
      q.re * q.re - q.imI * q.imI - q.imJ * q.imJ + q.imK * q.imK]

variable {a b q : ℍ[K]}

theorem rotMatrix_eq_hom (h : normSq q = 1) :
    rotMatrix q = homMatrix q := by
  rw [normSq_eq] at h
  -- off the diagonal the two are the same
  ext i j
  fin_cases i <;> fin_cases j
  all_goals simp [rotMatrix, homMatrix]
  · linear_combination -h
  · linear_combination -h
  · linear_combination -h

theorem homMatrix_mul (a b : ℍ[K]) :
    homMatrix (a * b) = homMatrix a * homMatrix b := by
  ext i j
  rw [Matrix.mul_apply, Fin.sum_univ_three]
  fin_cases i <;> fin_cases j
  all_goals
    simp [homMatrix]
    ring

theorem homMatrix_transpose_mul (q : ℍ[K]) :
    (homMatrix q)ᵀ * homMatrix q = (normSq q * normSq q) • 1 := by
  ext i j
  rw [Matrix.mul_apply, Fin.sum_univ_three, normSq_eq]
  fin_cases i <;> fin_cases j
  all_goals
    simp [homMatrix]
    ring

theorem homMatrix_det (q : ℍ[K]) :
    (homMatrix q).det = normSq q * normSq q * normSq q := by
  rw [Matrix.det_fin_three, normSq_eq]
  simp [homMatrix]
  ring

/-- The matrix of a product of unit quaternions is the product of their
matrices. -/
theorem rotMatrix_mul (ha : normSq a = 1) (hb : normSq b = 1) :
    rotMatrix (a * b) = rotMatrix a * rotMatrix b := by
  have hab : normSq (a * b) = 1 := by rw [map_mul, ha, hb, one_mul]
  rw [rotMatrix_eq_hom hab, rotMatrix_eq_hom ha, rotMatrix_eq_hom hb,
    homMatrix_mul]

/-- A matrix with orthonormal columns and determinant one. -/
structure IsRotation (R : Matrix (Fin 3) (Fin 3) K) : Prop where
  orthogonal : Rᵀ * R = 1
  det : R.det = 1

theorem rotMatrix_isRotation (h : normSq q = 1) :
    IsRotation (rotMatrix q) := by
  rw [rotMatrix_eq_hom h]
  refine ⟨?_, ?_⟩
  · rw [homMatrix_transpose_mul, h, one_mul, one_smul]
  · rw [homMatrix_det, h, one_mul, one_mul]

/-- The relations between the entries of a rotation: it is determined by
its first two rows, and these by its first row and its last column. -/
structure IsRotation.Entries (R : Matrix (Fin 3) (Fin 3) K) : Prop where
  row : R 0 0 * R 0 0 + R 0 1 * R 0 1 + R 0 2 * R 0 2 = 1
  row_next : R 1 0 * R 1 0 + R 1 1 * R 1 1 + R 1 2 * R 1 2 = 1
  dot : R 0 0 * R 1 0 + R 0 1 * R 1 1 + R 0 2 * R 1 2 = 0
  col : R 0 2 * R 0 2 + R 1 2 * R 1 2 + R 2 2 * R 2 2 = 1
  minor_zero : R 2 0 = R 0 1 * R 1 2 - R 0 2 * R 1 1
  minor_one : R 2 1 = R 0 2 * R 1 0 - R 0 0 * R 1 2
  minor_two : R 2 2 = R 0 0 * R 1 1 - R 0 1 * R 1 0

theorem IsRotation.entries {R : Matrix (Fin 3) (Fin 3) K}
    (h : IsRotation R) : IsRotation.Entries R := by
  have hrows : R * Rᵀ = 1 := mul_eq_one_comm.mp h.orthogonal
  -- the adjugate of a rotation is its transpose
  have hadj : R.adjugate = Rᵀ := by
    calc R.adjugate = R.adjugate * (R * Rᵀ) := by rw [hrows, mul_one]
      _ = Rᵀ := by
        rw [← mul_assoc, Matrix.adjugate_mul, h.det, one_smul, one_mul]
  have hrow : ∀ i j, R i 0 * R j 0 + R i 1 * R j 1 + R i 2 * R j 2
      = (1 : Matrix (Fin 3) (Fin 3) K) i j := by
    intro i j
    rw [← hrows, Matrix.mul_apply, Fin.sum_univ_three]
    rfl
  have hcol : R 0 2 * R 0 2 + R 1 2 * R 1 2 + R 2 2 * R 2 2
      = (1 : Matrix (Fin 3) (Fin 3) K) 2 2 := by
    rw [← h.orthogonal, Matrix.mul_apply, Fin.sum_univ_three]
    rfl
  have hminor : ∀ i j, R i j = R.adjugate j i := by
    intro i j
    rw [hadj]
    rfl
  refine ⟨hrow 0 0, hrow 1 1, hrow 0 1, hcol, ?_, ?_, ?_⟩
  · rw [hminor 2 0, Matrix.adjugate_fin_three]
    rfl
  · rw [hminor 2 1, Matrix.adjugate_fin_three]
    show -(R 0 0 * R 1 2) + R 0 2 * R 1 0 = R 0 2 * R 1 0 - R 0 0 * R 1 2
    ring
  · rw [hminor 2 2, Matrix.adjugate_fin_three]
    rfl

end Product

-- ================================================== equal up to sign

section Unique

variable [LinearOrder K] [IsStrictOrderedRing K] {a b : ℍ[K]}

/-- On unit quaternions of one matrix the products of two components
agree, and with them the square of the scalar product is the product of
the norms. -/
theorem product_eq (ha : normSq a = 1) (hb : normSq b = 1)
    (h : rotMatrix a = rotMatrix b) :
    (a.re * b.re + a.imI * b.imI + a.imJ * b.imJ + a.imK * b.imK)
      * (a.re * b.re + a.imI * b.imI + a.imJ * b.imJ + a.imK * b.imK)
      = 1 := by
  rw [normSq_eq] at ha hb
  have entry : ∀ i j, rotMatrix a i j = rotMatrix b i j :=
    fun i j => by rw [h]
  -- the diagonal gives the squares
  have h00 : 1 - 2 • (a.imJ * a.imJ + a.imK * a.imK)
      = 1 - 2 • (b.imJ * b.imJ + b.imK * b.imK) := entry 0 0
  have h11 : 1 - 2 • (a.imI * a.imI + a.imK * a.imK)
      = 1 - 2 • (b.imI * b.imI + b.imK * b.imK) := entry 1 1
  have h22 : 1 - 2 • (a.imI * a.imI + a.imJ * a.imJ)
      = 1 - 2 • (b.imI * b.imI + b.imJ * b.imJ) := entry 2 2
  have hii : a.imI * a.imI = b.imI * b.imI := by
    linear_combination (1 / 4) * h00 - (1 / 4) * h11 - (1 / 4) * h22
  have hjj : a.imJ * a.imJ = b.imJ * b.imJ := by
    linear_combination (1 / 4) * h11 - (1 / 4) * h00 - (1 / 4) * h22
  have hkk : a.imK * a.imK = b.imK * b.imK := by
    linear_combination (1 / 4) * h22 - (1 / 4) * h00 - (1 / 4) * h11
  have hrr : a.re * a.re = b.re * b.re := by
    linear_combination ha - hb - hii - hjj - hkk
  -- the pairs across it give the mixed products
  have h01 : 2 • (a.imI * a.imJ - a.re * a.imK)
      = 2 • (b.imI * b.imJ - b.re * b.imK) := entry 0 1
  have h10 : 2 • (a.imI * a.imJ + a.re * a.imK)
      = 2 • (b.imI * b.imJ + b.re * b.imK) := entry 1 0
  have h02 : 2 • (a.imI * a.imK + a.re * a.imJ)
      = 2 • (b.imI * b.imK + b.re * b.imJ) := entry 0 2
  have h20 : 2 • (a.imI * a.imK - a.re * a.imJ)
      = 2 • (b.imI * b.imK - b.re * b.imJ) := entry 2 0
  have h12 : 2 • (a.imJ * a.imK - a.re * a.imI)
      = 2 • (b.imJ * b.imK - b.re * b.imI) := entry 1 2
  have h21 : 2 • (a.imJ * a.imK + a.re * a.imI)
      = 2 • (b.imJ * b.imK + b.re * b.imI) := entry 2 1
  have hij : a.imI * a.imJ = b.imI * b.imJ := by
    linear_combination (1 / 4) * h01 + (1 / 4) * h10
  have hrk : a.re * a.imK = b.re * b.imK := by
    linear_combination (1 / 4) * h10 - (1 / 4) * h01
  have hik : a.imI * a.imK = b.imI * b.imK := by
    linear_combination (1 / 4) * h02 + (1 / 4) * h20
  have hrj : a.re * a.imJ = b.re * b.imJ := by
    linear_combination (1 / 4) * h02 - (1 / 4) * h20
  have hjk : a.imJ * a.imK = b.imJ * b.imK := by
    linear_combination (1 / 4) * h12 + (1 / 4) * h21
  have hri : a.re * a.imI = b.re * b.imI := by
    linear_combination (1 / 4) * h21 - (1 / 4) * h12
  linear_combination
    (a.re * a.re + a.imI * a.imI + a.imJ * a.imJ + a.imK * a.imK + 1) * ha
      - a.re * a.re * hrr - a.imI * a.imI * hii - a.imJ * a.imJ * hjj
      - a.imK * a.imK * hkk - 2 * (a.imI * a.imJ) * hij
      - 2 * (a.re * a.imK) * hrk - 2 * (a.imI * a.imK) * hik
      - 2 * (a.re * a.imJ) * hrj - 2 * (a.imJ * a.imK) * hjk
      - 2 * (a.re * a.imI) * hri

/-- A rotation has exactly two unit quaternions. -/
theorem rotMatrix_eq_iff (ha : normSq a = 1) (hb : normSq b = 1) :
    rotMatrix a = rotMatrix b ↔ a = b ∨ a = -b := by
  constructor
  · intro h
    have hone := product_eq ha hb h
    rw [normSq_eq] at ha hb
    -- the scalar product is one or minus one
    rcases mul_self_eq_one_iff.mp hone with hs | hs
    · left
      have hzero : normSq (a - b) = 0 := by
        rw [normSq_eq]
        simp only [re_sub, imI_sub, imJ_sub, imK_sub]
        linear_combination ha + hb - 2 * hs
      exact sub_eq_zero.mp (normSq_eq_zero.mp hzero)
    · right
      have hzero : normSq (a + b) = 0 := by
        rw [normSq_eq]
        simp only [re_add, imI_add, imJ_add, imK_add]
        linear_combination ha + hb + 2 * hs
      exact eq_neg_of_add_eq_zero_left (normSq_eq_zero.mp hzero)
  · intro h
    rcases h with rfl | rfl
    · rfl
    · unfold rotMatrix
      simp

/-- Two columns decide the rotation. -/
theorem columns_eq_iff (ha : normSq a = 1) (hb : normSq b = 1) :
    ((rotMatrix a).col 0 = (rotMatrix b).col 0
        ∧ (rotMatrix a).col 1 = (rotMatrix b).col 1)
      ↔ a = b ∨ a = -b := by
  rw [← rotMatrix_eq_iff ha hb]
  constructor
  · intro h
    obtain ⟨h₀, h₁⟩ := h
    have h₂ : (rotMatrix a).col 2 = (rotMatrix b).col 2 := by
      rw [← rotMatrix_cross ha, ← rotMatrix_cross hb, h₀, h₁]
    ext i j
    fin_cases j
    · exact congrFun h₀ i
    · exact congrFun h₁ i
    · exact congrFun h₂ i
  · intro h
    rw [h]
    exact ⟨rfl, rfl⟩

end Unique

-- ==================================================== without unit norm

section Scale

variable [LinearOrder K] [IsStrictOrderedRing K] {q : ℍ[K]} {k : K}

/-- A quaternion without imaginary part, by components. -/
theorem im_eq_zero_iff :
    q.im = 0 ↔ q.imI = 0 ∧ q.imJ = 0 ∧ q.imK = 0 := by
  constructor
  · intro h
    exact ⟨congrArg QuaternionAlgebra.imI h,
      congrArg QuaternionAlgebra.imJ h, congrArg QuaternionAlgebra.imK h⟩
  · rintro ⟨hi, hj, hk⟩
    ext
    · rfl
    · exact hi
    · exact hj
    · exact hk

/-- Two sums of squares that share a term vanish together only if all
their terms do. -/
theorem squares_eq_zero {x y z : K} (h : y * y + z * z = 0)
    (h' : x * x + z * z = 0) : x = 0 ∧ y = 0 ∧ z = 0 := by
  obtain ⟨hy, hz⟩ := mul_self_add_mul_self_eq_zero.mp h
  obtain ⟨hx, -⟩ := mul_self_add_mul_self_eq_zero.mp h'
  exact ⟨hx, hy, hz⟩

/-- The columns are orthonormal only at unit norm, or without an
imaginary part. -/
theorem orthonormal_iff :
    Orthonormal ((rotMatrix q).col 0) ((rotMatrix q).col 1)
      ↔ normSq q = 1 ∨ q.im = 0 := by
  constructor
  · intro h
    obtain ⟨hl, hr, -⟩ := h
    rw [col_zero_dot] at hl
    rw [col_one_dot] at hr
    by_cases hn : normSq q = 1
    case pos => exact Or.inl hn
    right
    have hne : normSq q - 1 ≠ 0 := sub_ne_zero.mpr hn
    rw [im_eq_zero_iff]
    apply squares_eq_zero
    · have hzero : (q.imJ * q.imJ + q.imK * q.imK) * (normSq q - 1)
          = 0 := by linear_combination (1 / 4) * hl
      exact (mul_eq_zero.mp hzero).resolve_right hne
    · have hzero : (q.imI * q.imI + q.imK * q.imK) * (normSq q - 1)
          = 0 := by linear_combination (1 / 4) * hr
      exact (mul_eq_zero.mp hzero).resolve_right hne
  · intro h
    rcases h with h | h
    · exact rotMatrix_orthonormal h
    · obtain ⟨hi, hj, hk⟩ := im_eq_zero_iff.mp h
      refine ⟨?_, ?_, ?_⟩
      · rw [col_zero_dot, hj, hk]
        ring
      · rw [col_one_dot, hi, hk]
        ring
      · rw [col_dot, hi]
        ring

/-- A factor leaves the columns only if its square is one, or there is
no imaginary part. -/
theorem columns_smul_iff :
    ((rotMatrix (k • q)).col 0 = (rotMatrix q).col 0
        ∧ (rotMatrix (k • q)).col 1 = (rotMatrix q).col 1)
      ↔ k * k = 1 ∨ q.im = 0 := by
  constructor
  · intro h
    obtain ⟨h₀, h₁⟩ := h
    have h00 : 1 - 2 • (k * q.imJ * (k * q.imJ) + k * q.imK * (k * q.imK))
        = 1 - 2 • (q.imJ * q.imJ + q.imK * q.imK) := congrFun h₀ 0
    have h11 : 1 - 2 • (k * q.imI * (k * q.imI) + k * q.imK * (k * q.imK))
        = 1 - 2 • (q.imI * q.imI + q.imK * q.imK) := congrFun h₁ 1
    by_cases hk : k * k = 1
    case pos => exact Or.inl hk
    right
    have hne : k * k - 1 ≠ 0 := sub_ne_zero.mpr hk
    rw [im_eq_zero_iff]
    apply squares_eq_zero
    · have hzero : (q.imJ * q.imJ + q.imK * q.imK) * (k * k - 1) = 0 := by
        linear_combination (-1 / 2) * h00
      exact (mul_eq_zero.mp hzero).resolve_right hne
    · have hzero : (q.imI * q.imI + q.imK * q.imK) * (k * k - 1) = 0 := by
        linear_combination (-1 / 2) * h11
      exact (mul_eq_zero.mp hzero).resolve_right hne
  · intro h
    have hmat : rotMatrix (k • q) = rotMatrix q := by
      unfold rotMatrix
      rcases h with h | h
      · have hpair : ∀ x y : K, k * x * (k * y) = x * y := by
          intro x y
          linear_combination x * y * h
        simp only [re_smul, imI_smul, imJ_smul, imK_smul, smul_eq_mul,
          hpair]
      · obtain ⟨hi, hj, hk⟩ := im_eq_zero_iff.mp h
        simp [hi, hj, hk]
    rw [hmat]
    exact ⟨rfl, rfl⟩

end Scale

end RlDeploy.Lib
