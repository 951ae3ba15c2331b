/-
Rounded arithmetic: every result goes to a nearest number that the
format has.

A `Rounding` is a function that takes each number to one of its values,
such that no value is nearer; which of two equally near values it takes
is left open. That alone makes values stay (`round_round`) and keeps the
order (`round_mono`), so a value below a number is below what the number
is rounded to (`le_round`).

How near the values lie is a second notion: a rounding is `Accurate` to
`u` and `e` when it moves a number `x` by at most `u * |x| + e`, a
relative error and, for the smallest numbers, an absolute one.

# Binary formats

`binary d m` is binary floating point with `d` digits after the leading
one and the least step `2 ^ (-m)`, rounded to nearest with ties to even:
`binary 23 149` has the finite numbers of single precision and
`binary 52 1074` those of double, and both go on beyond the greatest one.
There is no infinity here, no NaN, and one zero; a format that has these
too is made of a rounding in `Lib.Machine`.

# The moving average

In rounded arithmetic the recurrence `x ← (1 - b) * x + b * r` makes a
new error at every step, and forgets old ones at the rate at which it
forgets values. So the errors do not add up: the average stays within a
bound of the exact one that no step exceeds (`ema_drift`).
-/
import RlDeploy.Lib.Ema
import Mathlib.Data.Int.Log

namespace RlDeploy.Lib

/-- A rounding to nearest. -/
structure Rounding (K : Type) [Field K] [LinearOrder K]
    [IsStrictOrderedRing K] where
  round : K → K
  nearest : ∀ x y, |round x - x| ≤ |round y - x|
  odd : ∀ x, round (-x) = -round x
  one : round 1 = 1

namespace Rounding

variable {K : Type} [Field K] [LinearOrder K] [IsStrictOrderedRing K]
  {R : Rounding K} {x y : K}

-- ============================================================= nearest

@[simp] theorem round_zero (R : Rounding K) : R.round 0 = 0 := by
  have h := R.odd 0
  rw [neg_zero] at h
  linarith

/-- A value is nowhere nearer to anything than to itself. -/
@[simp] theorem round_round (R : Rounding K) (x : K) :
    R.round (R.round x) = R.round x := by
  have h := R.nearest (R.round x) x
  rw [sub_self, abs_zero] at h
  exact sub_eq_zero.mp (abs_eq_zero.mp (le_antisymm h (abs_nonneg _)))

/-- A number that is no further from the greater of two is past their
middle. -/
theorem add_le_of_nearer {a b : K} (hab : a < b)
    (h : |b - x| ≤ |a - x|) : a + b ≤ 2 * x := by
  have hsq := sq_le_sq.mpr h
  have hfactor : (b - x) ^ 2 - (a - x) ^ 2
      = (b - a) * (a + b - 2 * x) := by ring
  by_contra hlt
  have hpos : 0 < (b - a) * (a + b - 2 * x) :=
    mul_pos (sub_pos.mpr hab) (sub_pos.mpr (not_le.mp hlt))
  linarith

/-- Rounding keeps the order: were it to swap two numbers, the smaller
one would be past the middle of their values and the greater before
it. -/
theorem round_mono (R : Rounding K) (h : x ≤ y) :
    R.round x ≤ R.round y := by
  rcases h.eq_or_lt with rfl | hlt
  · exact le_refl _
  by_contra hswap
  rw [not_le] at hswap
  have hx : R.round y + R.round x ≤ 2 * x :=
    add_le_of_nearer hswap (R.nearest x y)
  -- the same for the mirrored numbers
  have hy : -R.round x + -R.round y ≤ 2 * -y := by
    apply add_le_of_nearer (neg_lt_neg hswap)
    have hnear := R.nearest (-y) (-x)
    rwa [R.odd, R.odd] at hnear
  linarith

/-- A value below a number is below what it is rounded to. -/
theorem le_round (hx : R.round x = x) (h : x ≤ y) : x ≤ R.round y := by
  rw [← hx]
  exact R.round_mono h

theorem round_nonneg (h : 0 ≤ x) : 0 ≤ R.round x :=
  le_round R.round_zero h

theorem round_abs (R : Rounding K) (x : K) :
    R.round |x| = |R.round x| := by
  rcases abs_cases x with ⟨habs, hx⟩ | ⟨habs, hx⟩
  · rw [habs, abs_of_nonneg (round_nonneg hx)]
  · have hneg : 0 ≤ R.round (-x) := round_nonneg (by linarith)
    rw [habs, ← abs_neg, ← R.odd, abs_of_nonneg hneg]

/-- Rounding keeps bounds of the absolute value. -/
theorem abs_round_le (h : |x| ≤ y) : |R.round x| ≤ R.round y := by
  rw [abs_le] at h ⊢
  constructor
  · rw [← R.odd]
    exact R.round_mono h.1
  · exact R.round_mono h.2

-- ============================================================== values

/-- A finite number that the format has, or has beyond its greatest
one. -/
structure Value (R : Rounding K) where
  val : K
  isValue : R.round val = val

namespace Value

@[ext] theorem ext {a b : R.Value} (h : a.val = b.val) : a = b := by
  cases a
  cases b
  cases h
  rfl

instance : DecidableEq R.Value := fun a b =>
  decidable_of_iff (a.val = b.val) ⟨ext, fun h => h ▸ rfl⟩

/-- The value a number is rounded to. -/
def of (R : Rounding K) (x : K) : R.Value := ⟨R.round x, R.round_round x⟩

instance : Zero R.Value := ⟨0, R.round_zero⟩
instance : One R.Value := ⟨1, R.one⟩
instance : Neg R.Value := ⟨fun a => ⟨-a.val, by rw [R.odd, a.isValue]⟩⟩
instance : Add R.Value := ⟨fun a b => of R (a.val + b.val)⟩
instance : Sub R.Value := ⟨fun a b => of R (a.val - b.val)⟩
instance : Mul R.Value := ⟨fun a b => of R (a.val * b.val)⟩

@[simp] theorem val_of (R : Rounding K) (x : K) :
    (of R x).val = R.round x := rfl

@[simp] theorem val_zero : (0 : R.Value).val = 0 := rfl

@[simp] theorem val_one : (1 : R.Value).val = 1 := rfl

@[simp] theorem val_neg (a : R.Value) : (-a).val = -a.val := rfl

theorem of_neg (x : K) : of R (-x) = -of R x := ext (R.odd x)

@[simp] theorem val_add (a b : R.Value) :
    (a + b).val = R.round (a.val + b.val) := rfl

@[simp] theorem val_sub (a b : R.Value) :
    (a - b).val = R.round (a.val - b.val) := rfl

@[simp] theorem val_mul (a b : R.Value) :
    (a * b).val = R.round (a.val * b.val) := rfl

end Value

-- ============================================================ accuracy

/-- The rounding moves no number by more than a relative error `u` and
an absolute error `e`. -/
structure Accurate (R : Rounding K) (u e : K) : Prop where
  relative : 0 ≤ u
  absolute : 0 ≤ e
  error : ∀ x, |R.round x - x| ≤ u * |x| + e

theorem Accurate.of_le {u e : K} (h : R.Accurate u e) {b : K}
    (hx : |x| ≤ b) : |R.round x - x| ≤ u * b + e := by
  have := h.error x
  have := mul_le_mul_of_nonneg_left hx h.relative
  linarith

/-- The rounded sum of two numbers that are off themselves. -/
theorem Accurate.round_add {u e : K} (h : R.Accurate u e)
    {x' y' b c off off' : K} (hx : |x| ≤ b) (hy : |y| ≤ c)
    (hx' : |x' - x| ≤ off) (hy' : |y' - y| ≤ off') :
    |R.round (x' + y') - (x + y)|
      ≤ u * (b + c + off + off') + e + off + off' := by
  have hsum : |x' + y'| ≤ b + c + off + off' := by
    have := abs_add_le x' y'
    have := abs_sub_abs_le_abs_sub x' x
    have := abs_sub_abs_le_abs_sub y' y
    linarith
  have hround := h.of_le hsum
  have hparts : |x' + y' - (x + y)| ≤ off + off' := by
    rw [add_sub_add_comm]
    have := abs_add_le (x' - x) (y' - y)
    linarith
  have := abs_sub_le (R.round (x' + y')) (x' + y') (x + y)
  linarith

-- ======================================================= binary formats

/-- The integer nearest to a number, the even one of two. -/
def toEven (q : ℚ) : ℤ :=
  if q - ⌊q⌋ < 1 / 2 then ⌊q⌋
  else if 1 / 2 < q - ⌊q⌋ then ⌊q⌋ + 1
  else if ⌊q⌋ % 2 = 0 then ⌊q⌋
  else ⌊q⌋ + 1

theorem abs_toEven_sub_le (q : ℚ) : |(toEven q : ℚ) - q| ≤ 1 / 2 := by
  have hlo := Int.floor_le q
  have hhi := Int.lt_floor_add_one q
  unfold toEven
  rw [abs_le]
  split
  · constructor <;> linarith
  split
  · push_cast
    constructor <;> linarith
  split
  · constructor <;> linarith
  · push_cast
    constructor <;> linarith

/-- No integer is nearer. -/
theorem toEven_nearest (q : ℚ) (k : ℤ) :
    |(toEven q : ℚ) - q| ≤ |(k : ℚ) - q| := by
  by_cases hk : k = toEven q
  case pos => rw [hk]
  have hhalf := abs_toEven_sub_le q
  -- another integer is at least one away from it
  have hone : (1 : ℚ) ≤ |(k : ℚ) - toEven q| := by
    rw [← Int.cast_sub, ← Int.cast_abs]
    exact_mod_cast Int.one_le_abs (sub_ne_zero.mpr hk)
  have htri := abs_sub_le (k : ℚ) q (toEven q : ℚ)
  rw [abs_sub_comm q] at htri
  linarith

theorem toEven_intCast (k : ℤ) : toEven k = k := by
  have h := toEven_nearest k k
  rw [sub_self, abs_zero] at h
  have hzero := abs_eq_zero.mp (le_antisymm h (abs_nonneg _))
  exact_mod_cast sub_eq_zero.mp hzero

theorem toEven_neg (q : ℚ) : toEven (-q) = -toEven q := by
  have hlo := Int.floor_le q
  have hhi := Int.lt_floor_add_one q
  by_cases hint : q = ⌊q⌋
  case pos =>
    have hneg : -q = ((-⌊q⌋ : ℤ) : ℚ) := by
      push_cast
      rw [← hint]
    rw [hneg, toEven_intCast]
    nth_rewrite 2 [hint]
    rw [toEven_intCast]
  -- the floor of the mirrored number is the other neighbour
  have hlt : (⌊q⌋ : ℚ) < q := lt_of_le_of_ne hlo (Ne.symm hint)
  have hfloor : ⌊-q⌋ = -⌊q⌋ - 1 := by
    rw [Int.floor_eq_iff]
    push_cast
    constructor <;> linarith
  unfold toEven
  rw [hfloor]
  push_cast
  by_cases h₁ : q - ⌊q⌋ < 1 / 2
  case pos =>
    rw [if_pos h₁, if_neg (by linarith), if_pos (by linarith)]
    omega
  by_cases h₂ : 1 / 2 < q - ⌊q⌋
  case pos =>
    rw [if_neg h₁, if_pos h₂, if_pos (by linarith)]
    omega
  rw [if_neg h₁, if_neg h₂, if_neg (by linarith), if_neg (by linarith)]
  by_cases h₃ : ⌊q⌋ % 2 = 0
  · rw [if_pos h₃, if_neg (by omega)]
    omega
  · rw [if_neg h₃, if_pos (by omega)]
    omega

/-- The exponent of the step between the values around a number. -/
def stepExp (d m : ℕ) (x : ℚ) : ℤ := max (Int.log 2 |x| - d) (-m)

/-- The step between the values around a number. -/
def gap (d m : ℕ) (x : ℚ) : ℚ := 2 ^ stepExp d m x

theorem gap_pos (d m : ℕ) (x : ℚ) : 0 < gap d m x :=
  zpow_pos (by norm_num) _

/-- A power of two is a multiple of every smaller one. -/
theorem zpow_multiple {a b : ℤ} (h : a ≤ b) :
    ∃ k : ℤ, (2 : ℚ) ^ b = k * 2 ^ a := by
  obtain ⟨n, rfl⟩ := Int.le.dest h
  refine ⟨2 ^ n, ?_⟩
  rw [zpow_add₀ two_ne_zero, zpow_natCast]
  push_cast
  ring

def binaryRound (d m : ℕ) (x : ℚ) : ℚ :=
  toEven (x / gap d m x) * gap d m x

/-- No multiple of the step is nearer than the rounded number. -/
theorem binaryRound_nearest (d m : ℕ) (x : ℚ) (k : ℤ) :
    |binaryRound d m x - x| ≤ |k * gap d m x - x| := by
  have hpos := gap_pos d m x
  have hscale : ∀ j : ℤ, |j * gap d m x - x|
      = |(j : ℚ) - x / gap d m x| * gap d m x := by
    intro j
    rw [← abs_of_pos hpos, ← abs_mul, sub_mul, abs_of_pos hpos,
      div_mul_cancel₀ x hpos.ne']
  unfold binaryRound
  rw [hscale, hscale]
  exact mul_le_mul_of_nonneg_right (toEven_nearest _ k) hpos.le

/-- Nor is one of a power of two that the step divides, and so the
rounded number stays within such a power. -/
theorem binaryRound_nearest_zpow (d m : ℕ) (x : ℚ) {a : ℤ}
    (ha : stepExp d m x ≤ a) (k : ℤ) :
    |binaryRound d m x - x| ≤ |k * 2 ^ a - x| := by
  obtain ⟨j, hj⟩ := zpow_multiple ha
  have h := binaryRound_nearest d m x (k * j)
  have heq : ((k * j : ℤ) : ℚ) * gap d m x = k * 2 ^ a := by
    rw [hj]
    push_cast
    unfold gap
    ring
  rwa [heq] at h

theorem abs_binaryRound_le (d m : ℕ) {x : ℚ} {a : ℤ}
    (ha : stepExp d m x ≤ a) (hx : |x| ≤ 2 ^ a) :
    |binaryRound d m x| ≤ 2 ^ a := by
  obtain ⟨j, hj⟩ := zpow_multiple ha
  have hpos := gap_pos d m x
  have hle := abs_toEven_sub_le (x / gap d m x)
  have hq : |x / gap d m x| ≤ (j : ℚ) := by
    rw [abs_div, abs_of_pos hpos, div_le_iff₀ hpos]
    exact hx.trans hj.le
  -- integers that are less than one past a bound are within it
  have hint : |toEven (x / gap d m x)| ≤ j := by
    rw [abs_le] at hle hq ⊢
    have hlo : ((-j - 1 : ℤ) : ℚ) < (toEven (x / gap d m x) : ℚ) := by
      push_cast
      linarith
    have hhi : (toEven (x / gap d m x) : ℚ) < ((j + 1 : ℤ) : ℚ) := by
      push_cast
      linarith
    have := Int.cast_lt.mp hlo
    have := Int.cast_lt.mp hhi
    omega
  unfold binaryRound
  rw [abs_mul, abs_of_pos hpos, hj]
  apply mul_le_mul_of_nonneg_right _ hpos.le
  exact_mod_cast hint

theorem gap_neg (d m : ℕ) (x : ℚ) : gap d m (-x) = gap d m x := by
  unfold gap stepExp
  rw [abs_neg]

theorem binaryRound_neg (d m : ℕ) (x : ℚ) :
    binaryRound d m (-x) = -binaryRound d m x := by
  unfold binaryRound
  rw [gap_neg, neg_div, toEven_neg]
  push_cast
  ring

theorem binaryRound_one (d m : ℕ) : binaryRound d m 1 = 1 := by
  have hexp : stepExp d m 1 ≤ 0 := by
    unfold stepExp
    rw [abs_one, Int.log_one_right]
    omega
  have h := binaryRound_nearest_zpow d m 1 hexp 1
  rw [zpow_zero, Int.cast_one, one_mul, sub_self, abs_zero] at h
  exact sub_eq_zero.mp (abs_eq_zero.mp (le_antisymm h (abs_nonneg _)))

/-- A value with a finer step lies below the power of two that starts
the binade of `x`. -/
theorem abs_binaryRound_le_of_finer {d m : ℕ} {x y : ℚ}
    (hfine : stepExp d m y < stepExp d m x) :
    |binaryRound d m y| ≤ 2 ^ Int.log 2 |x| := by
  unfold stepExp at hfine
  have hlog : Int.log 2 |y| < Int.log 2 |x| := by omega
  apply abs_binaryRound_le
  · unfold stepExp
    omega
  · calc |y| ≤ 2 ^ (Int.log 2 |y| + 1) :=
          (Int.lt_zpow_succ_log_self one_lt_two |y|).le
      _ ≤ 2 ^ Int.log 2 |x| :=
          zpow_le_zpow_right₀ one_le_two (by omega)

/-- Nearest among all values: those with the step of `x` or a greater
one are multiples of it; the others lie beyond the start of the binade
of `x`, which is a multiple too. -/
theorem binaryRound_nearest_value (d m : ℕ) (x y : ℚ) :
    |binaryRound d m x - x| ≤ |binaryRound d m y - x| := by
  by_cases hstep : stepExp d m x ≤ stepExp d m y
  case pos => exact binaryRound_nearest_zpow d m x hstep _
  rw [not_le] at hstep
  have hy := abs_binaryRound_le_of_finer hstep
  have hexp : stepExp d m x ≤ Int.log 2 |x| := by
    unfold stepExp at hstep ⊢
    omega
  by_cases hx : x = 0
  case pos =>
    have h := binaryRound_nearest d m x 0
    rw [Int.cast_zero, zero_mul, hx, sub_self, abs_zero] at h
    rw [hx]
    exact h.trans (abs_nonneg _)
  have hlog : (2 : ℚ) ^ Int.log 2 |x| ≤ |x| := by
    exact_mod_cast Int.zpow_log_le_self one_lt_two (abs_pos.mpr hx)
  rw [abs_le] at hy
  rcases abs_cases x with ⟨habs, _⟩ | ⟨habs, _⟩
  · have h := binaryRound_nearest_zpow d m x hexp 1
    have hstart : |(1 : ℤ) * (2 : ℚ) ^ Int.log 2 |x| - x|
        = x - 2 ^ Int.log 2 |x| := by
      rw [Int.cast_one, one_mul, abs_sub_comm, abs_of_nonneg]
      linarith
    rw [hstart] at h
    have := neg_abs_le (binaryRound d m y - x)
    linarith
  · have h := binaryRound_nearest_zpow d m x hexp (-1)
    have hstart : |(-1 : ℤ) * (2 : ℚ) ^ Int.log 2 |x| - x|
        = -2 ^ Int.log 2 |x| - x := by
      rw [Int.cast_neg, Int.cast_one, neg_one_mul, abs_of_nonneg]
      linarith
    rw [hstart] at h
    have := le_abs_self (binaryRound d m y - x)
    linarith

/-- Binary floating point, to nearest with ties to even. -/
def binary (d m : ℕ) : Rounding ℚ where
  round := binaryRound d m
  nearest := binaryRound_nearest_value d m
  odd := binaryRound_neg d m
  one := binaryRound_one d m

/-- The step between the values around a number is a share of it, or the
least step there is. -/
theorem gap_le (d m : ℕ) {x : ℚ} (hx : x ≠ 0) :
    gap d m x ≤ 2 ^ (-(d : ℤ)) * |x| + 2 ^ (-(m : ℤ)) := by
  have hm : (0 : ℚ) < 2 ^ (-(m : ℤ)) := zpow_pos two_pos _
  have hd : (0 : ℚ) < 2 ^ (-(d : ℤ)) := zpow_pos two_pos _
  have hlog : (2 : ℚ) ^ Int.log 2 |x| ≤ |x| := by
    exact_mod_cast Int.zpow_log_le_self one_lt_two (abs_pos.mpr hx)
  have hshare := mul_le_mul_of_nonneg_left hlog hd.le
  have hnonneg := mul_nonneg hd.le (abs_nonneg x)
  unfold gap stepExp
  rcases max_cases (Int.log 2 |x| - (d : ℤ)) (-m) with ⟨h, _⟩ | ⟨h, _⟩
  · rw [h, sub_eq_neg_add, zpow_add₀ two_ne_zero]
    linarith
  · rw [h]
    linarith

/-- The error is at most half a step: of the last digit, or of the least
step there is. -/
theorem binary_accurate (d m : ℕ) :
    (binary d m).Accurate (1 / 2 * 2 ^ (-(d : ℤ)))
      (1 / 2 * 2 ^ (-(m : ℤ))) := by
  have hm : (0 : ℚ) < 2 ^ (-(m : ℤ)) := zpow_pos two_pos _
  have hd : (0 : ℚ) < 2 ^ (-(d : ℤ)) := zpow_pos two_pos _
  refine ⟨by linarith, by linarith, ?_⟩
  intro x
  by_cases hx : x = 0
  case pos =>
    rw [hx, round_zero, sub_zero, abs_zero, mul_zero, zero_add]
    linarith
  have hpos := gap_pos d m x
  have hhalf : |binaryRound d m x - x| ≤ 1 / 2 * gap d m x := by
    have hle := mul_le_mul_of_nonneg_right
      (abs_toEven_sub_le (x / gap d m x)) hpos.le
    have hscale : binaryRound d m x - x
        = (toEven (x / gap d m x) - x / gap d m x) * gap d m x := by
      unfold binaryRound
      rw [sub_mul, div_mul_cancel₀ x hpos.ne']
    rw [hscale, abs_mul, abs_of_pos hpos]
    exact hle
  have hgap := gap_le d m hx
  show |binaryRound d m x - x| ≤ _
  linarith

-- =================================================== the moving average

variable {u e : K}

/-- The error one step of the average adds, for values and averages
within `bound`. -/
def stepDrift (u e bound : K) : K :=
  ((2 : ℕ) * u + u ^ 2) * (1 + u + e) * bound + (u + e) * bound
    + ((3 : ℕ) + (2 : ℕ) * u) * e

/-- The share of an old error that a step keeps, when its old value has
the weight `keep`. -/
def keptDrift (u keep : K) : K := (1 + u) ^ 2 * keep

/-- What the rounded average is off by at most, after any number of
steps. -/
def drift (u e keep bound : K) : K :=
  stepDrift u e bound / (1 - keptDrift u keep)

/-- The step in rounded arithmetic. -/
def roundedStep (b x r : R.Value) : R.Value := (1 - b) * x + b * r

/-- The average in rounded arithmetic. -/
def roundedEma (b : R.Value) (rs : List R.Value) : R.Value :=
  rs.foldl (roundedStep b) 0

theorem roundedEma_snoc (b : R.Value) (rs : List R.Value) (r : R.Value) :
    roundedEma b (rs ++ [r]) = roundedStep b (roundedEma b rs) r := by
  unfold roundedEma
  rw [List.foldl_append]
  rfl

/-- The weight of the old value. -/
theorem keep_nonneg {b : R.Value} (hb₁ : b.val ≤ 1) :
    0 ≤ (1 - b).val :=
  round_nonneg (sub_nonneg.mpr hb₁)

section Drift

variable (h : R.Accurate u e) {b : R.Value} (hb : 0 ≤ b.val)
  (hb₁ : b.val ≤ 1) {bound : K}

include h hb hb₁

/-- The weight of the old value is rounded, once and for all. -/
theorem abs_keep_sub_le : |(1 - b).val - (1 - b.val)| ≤ u + e := by
  have hle : |1 - b.val| ≤ 1 := by
    rw [abs_le]
    constructor <;> linarith
  have := h.of_le hle
  rwa [mul_one] at this

/-- A step with the rounded weight, on an average that is off. -/
theorem weighted_sub_le {x r : R.Value} {y : K} (hy : |y| ≤ bound) :
    |(1 - b).val * x.val + b.val * r.val - emaStep b.val y r.val|
      ≤ (1 - b).val * |x.val - y| + (u + e) * bound := by
  have hkeep := abs_keep_sub_le h hb hb₁
  have hkeep₀ := keep_nonneg hb₁
  have hsplit : (1 - b).val * x.val + b.val * r.val
      - emaStep b.val y r.val
      = (1 - b).val * (x.val - y)
        + ((1 - b).val - (1 - b.val)) * y := by
    unfold emaStep
    ring
  have hrest : |((1 - b).val - (1 - b.val)) * y| ≤ (u + e) * bound := by
    rw [abs_mul]
    exact mul_le_mul hkeep hy (abs_nonneg y) ((abs_nonneg _).trans hkeep)
  have htri := abs_add_le ((1 - b).val * (x.val - y))
    (((1 - b).val - (1 - b.val)) * y)
  rw [abs_mul, abs_of_nonneg hkeep₀] at htri
  rw [hsplit]
  linarith

/-- One step: three more roundings, and a share of the old error. -/
theorem roundedStep_sub_le {x r : R.Value} {y : K} (hr : |r.val| ≤ bound)
    (hy : |y| ≤ bound) :
    |(roundedStep b x r).val - emaStep b.val y r.val|
      ≤ keptDrift u (1 - b).val * |x.val - y| + stepDrift u e bound := by
  have hu := h.relative
  have hkeep₀ := keep_nonneg hb₁
  have hkeep := (abs_le.mp (abs_keep_sub_le h hb hb₁)).2
  have hweighted := weighted_sub_le h hb hb₁ (x := x) (r := r) hy
  have hbound : 0 ≤ bound := (abs_nonneg _).trans hy
  -- the two products
  have hold : |(1 - b).val * x.val|
      ≤ (1 - b).val * (bound + |x.val - y|) := by
    have hx : |x.val| ≤ bound + |x.val - y| := by
      have := abs_sub_abs_le_abs_sub x.val y
      linarith
    rw [abs_mul, abs_of_nonneg hkeep₀]
    exact mul_le_mul_of_nonneg_left hx hkeep₀
  have hnew : |b.val * r.val| ≤ b.val * bound := by
    rw [abs_mul, abs_of_nonneg hb]
    exact mul_le_mul_of_nonneg_left hr hb
  -- their sum
  have hsum := h.round_add hold hnew (h.of_le hold) (h.of_le hnew)
  have hstep : (roundedStep b x r).val
      = R.round (R.round ((1 - b).val * x.val)
        + R.round (b.val * r.val)) := rfl
  rw [← hstep] at hsum
  have htri := abs_sub_le (roundedStep b x r).val
    ((1 - b).val * x.val + b.val * r.val) (emaStep b.val y r.val)
  -- the two weights sum up to one, as far as rounding goes
  have hweights : (2 * u + u ^ 2) * (((1 - b).val + b.val) * bound)
      ≤ (2 * u + u ^ 2) * ((1 + u + e) * bound) := by
    apply mul_le_mul_of_nonneg_left _ (by positivity)
    exact mul_le_mul_of_nonneg_right (by linarith) hbound
  generalize (1 - b).val = keep at *
  generalize |x.val - y| = d at *
  calc |(roundedStep b x r).val - emaStep b.val y r.val|
      ≤ (u * (keep * (bound + d) + b.val * bound
          + (u * (keep * (bound + d)) + e) + (u * (b.val * bound) + e))
          + e + (u * (keep * (bound + d)) + e)
          + (u * (b.val * bound) + e)) + (keep * d + (u + e) * bound) := by
        linarith
    _ = keptDrift u keep * d + (2 * u + u ^ 2) * ((keep + b.val) * bound)
        + (u + e) * bound + (3 + 2 * u) * e := by
        unfold keptDrift
        ring
    _ ≤ keptDrift u keep * d + stepDrift u e bound := by
        unfold stepDrift
        push_cast
        linarith

/-- The rounded average stays near the exact one, over any number of
values: what a step adds, it has room for by what it forgets. -/
theorem ema_drift (hkept : keptDrift u (1 - b).val < 1)
    {rs : List R.Value} (hrs : ∀ r ∈ rs, |r.val| ≤ bound)
    (hbound : 0 ≤ bound) :
    |(roundedEma b rs).val - ema b.val (rs.map Value.val)|
      ≤ drift u e (1 - b).val bound := by
  have hroom : 0 < 1 - keptDrift u (1 - b).val := sub_pos.mpr hkept
  have hstep₀ : 0 ≤ stepDrift u e bound := by
    have := h.relative
    have := h.absolute
    unfold stepDrift
    positivity
  have hfix : keptDrift u (1 - b).val * drift u e (1 - b).val bound
      + stepDrift u e bound = drift u e (1 - b).val bound := by
    have hdiv : drift u e (1 - b).val bound
        * (1 - keptDrift u (1 - b).val) = stepDrift u e bound :=
      div_mul_cancel₀ _ hroom.ne'
    linarith
  have hkept₀ : 0 ≤ keptDrift u (1 - b).val :=
    mul_nonneg (sq_nonneg _) (keep_nonneg hb₁)
  induction rs using List.reverseRecOn with
  | nil =>
      show |(0 : K) - 0| ≤ _
      rw [sub_self, abs_zero]
      exact div_nonneg hstep₀ hroom.le
  | append_singleton rs r ih =>
      have hrest : ∀ r' ∈ rs, |r'.val| ≤ bound := fun r' hr' =>
        hrs r' (List.mem_append_left _ hr')
      have hr : |r.val| ≤ bound := hrs r (by simp)
      -- the exact average is within the bound of the values
      have hy : |ema b.val (rs.map Value.val)| ≤ bound := by
        have hmem : ∀ x ∈ rs.map Value.val, |x| ≤ bound := by
          intro x hx
          obtain ⟨r', hr', rfl⟩ := List.mem_map.mp hx
          exact hrest r' hr'
        rw [abs_le]
        constructor
        · exact le_ema hb hb₁ (neg_nonpos.mpr hbound) fun x hx =>
            (abs_le.mp (hmem x hx)).1
        · exact ema_le hb hb₁ hbound fun x hx =>
            (abs_le.mp (hmem x hx)).2
      have hstep := roundedStep_sub_le h hb hb₁
        (x := roundedEma b rs) hr hy
      have hshare := mul_le_mul_of_nonneg_left (ih hrest) hkept₀
      rw [roundedEma_snoc, List.map_append, List.map_singleton, ema_snoc]
      unfold emaStep at hstep
      linarith

end Drift

end Rounding

end RlDeploy.Lib
