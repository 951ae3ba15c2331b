/-
The rationals with the special values of floating point: one NaN and two
infinities, with the IEEE rules for them. Finite arithmetic is exact, so
the type separates what special values do to a computation from what
rounding does to it. There is one zero; its sign is rounding's business.

# The rules

NaN is absorbing, and every comparison with it is false. An infinity
absorbs finite summands, infinities of opposite sign have no sum, and
zero times an infinity has no value: these are NaN.
-/
import Mathlib.Tactic

namespace RlDeploy.Lib

inductive ExtRat
  | fin (q : ℚ)
  | nan
  | posInf
  | negInf
  deriving DecidableEq, Repr

namespace ExtRat

/-- The infinity of the sign of `q`, and NaN for the sign of zero. -/
def infOfSign (q : ℚ) : ExtRat :=
  if q = 0 then nan else if 0 < q then posInf else negInf

def neg : ExtRat → ExtRat
  | fin q => fin (-q)
  | nan => nan
  | posInf => negInf
  | negInf => posInf

def add : ExtRat → ExtRat → ExtRat
  | nan, _ | _, nan => nan
  | fin a, fin b => fin (a + b)
  | posInf, negInf | negInf, posInf => nan
  | posInf, _ | _, posInf => posInf
  | negInf, _ | _, negInf => negInf

def mul : ExtRat → ExtRat → ExtRat
  | nan, _ | _, nan => nan
  | fin a, fin b => fin (a * b)
  | fin a, posInf | posInf, fin a => infOfSign a
  | fin a, negInf | negInf, fin a => infOfSign (-a)
  | posInf, posInf | negInf, negInf => posInf
  | posInf, negInf | negInf, posInf => negInf

/-- `a < b`; false when either is NaN. -/
def lt : ExtRat → ExtRat → Bool
  | fin a, fin b => decide (a < b)
  | negInf, fin _ | negInf, posInf | fin _, posInf => true
  | _, _ => false

/-- `a ≤ b`; false when either is NaN. -/
def le (a b : ExtRat) : Bool := lt a b || (decide (a = b) && a != nan)

instance : Zero ExtRat := ⟨fin 0⟩
instance : One ExtRat := ⟨fin 1⟩
instance : Neg ExtRat := ⟨neg⟩
instance : Add ExtRat := ⟨add⟩
instance : Sub ExtRat := ⟨fun a b => a + -b⟩
instance : Mul ExtRat := ⟨mul⟩

def isFinite : ExtRat → Bool
  | fin _ => true
  | _ => false

-- =========================================================== arithmetic

theorem zero_def : (0 : ExtRat) = fin 0 := rfl

theorem isFinite_iff {x : ExtRat} :
    x.isFinite = true ↔ ∃ q, x = fin q := by
  cases x with
  | fin q => exact ⟨fun _ => ⟨q, rfl⟩, fun _ => rfl⟩
  | nan => simp [isFinite]
  | posInf => simp [isFinite]
  | negInf => simp [isFinite]

@[simp] theorem nan_add (x : ExtRat) : nan + x = nan := by
  cases x <;> rfl

@[simp] theorem nan_mul (x : ExtRat) : nan * x = nan := by
  cases x <;> rfl

@[simp] theorem zero_add (x : ExtRat) : 0 + x = x := by
  cases x with
  | fin q => exact congrArg fin (show 0 + q = q by ring)
  | nan => rfl
  | posInf => rfl
  | negInf => rfl

@[simp] theorem one_mul (x : ExtRat) : 1 * x = x := by
  cases x with
  | fin q => exact congrArg fin (show 1 * q = q by ring)
  | nan => rfl
  | posInf => rfl
  | negInf => rfl

@[simp] theorem one_sub_one : (1 : ExtRat) - 1 = 0 :=
  congrArg fin (by norm_num)

/-- A zero factor vanishes on the finite values only. -/
theorem zero_mul (x : ExtRat) :
    0 * x = if x.isFinite then 0 else nan := by
  cases x with
  | fin q => exact congrArg fin (show 0 * q = 0 by ring)
  | nan => rfl
  | posInf => rfl
  | negInf => rfl

/-- Products of finite values are finite. -/
theorem fin_mul_fin (a b : ℚ) : fin a * fin b = fin (a * b) := rfl

-- ========================================================== comparisons

@[simp] theorem nan_lt (x : ExtRat) : lt nan x = false := by
  cases x <;> rfl

@[simp] theorem lt_nan (x : ExtRat) : lt x nan = false := by
  cases x <;> rfl

/-- The values that are not negative: finite ones, and infinity. -/
theorem zero_le_iff {x : ExtRat} :
    le 0 x = true ↔ x = posInf ∨ ∃ q, 0 ≤ q ∧ x = fin q := by
  rw [zero_def]
  cases x with
  | fin q =>
      unfold le lt
      simp only [Bool.or_eq_true, decide_eq_true_eq, Bool.and_eq_true,
        reduceCtorEq, false_or, fin.injEq]
      constructor
      · intro h
        refine ⟨q, ?_, rfl⟩
        rcases h with h | ⟨h, -⟩
        · exact h.le
        · exact h.le
      · intro ⟨p, hp, hq⟩
        subst hq
        rcases hp.lt_or_eq with h | h
        · exact Or.inl h
        · exact Or.inr ⟨h, rfl⟩
  | nan => simp [le, lt]
  | posInf => simp [le, lt]
  | negInf => simp [le, lt]

end ExtRat

end RlDeploy.Lib
