/-
Floating point as machines have it, with overflow, the infinities, NaN
and two zeros.

A `Format` is a rounding to nearest together with the greatest number
there is. Its finite numbers (`Value`) have a sign of their own, so zero
has one too; besides them there are the two infinities and NaN
(`Number`). What a NaN carries is not told apart.

# The operations

Every operation is the exact one, rounded once (`ofRat`). What would be
rounded past the greatest number becomes an infinity. NaN is absorbing;
infinities of opposite sign have no sum, and zero times an infinity has
no value: these are NaN.

# The order

`le` is the comparison of the machine: it tells the two zeros not apart,
and with NaN it is false. Rounding keeps it, overflow included
(`ofRat_le`), so a bound that is computed with the same roundings is a
bound. What can be lost on the way to a result is only that it is a
number at all; for a moving average of finite values it is not
(`average_ne_nan`), although it may overflow.
-/
import RlDeploy.Lib.Rounding

namespace RlDeploy.Lib

/-- A floating-point format: rounding to nearest, and the greatest
number. -/
structure Format where
  rounding : Rounding ℚ
  greatest : ℚ
  isValue : rounding.round greatest = greatest
  one_le : 1 ≤ greatest

namespace Format

/-- A finite number, by sign and magnitude. -/
@[ext]
structure Value (A : Format) where
  neg : Bool
  mag : ℚ
  nonneg : 0 ≤ mag
  isValue : A.rounding.round mag = mag
  le_greatest : mag ≤ A.greatest

inductive Number (A : Format)
  | fin (x : A.Value)
  | inf (neg : Bool)
  | nan

variable {A B : Format}

-- ============================================================== values

namespace Value

/-- The number a value stands for; the zeros stand for the same. -/
def val (x : A.Value) : ℚ := if x.neg then -x.mag else x.mag

def zero (A : Format) : A.Value where
  neg := false
  mag := 0
  nonneg := le_refl 0
  isValue := A.rounding.round_zero
  le_greatest := zero_le_one.trans A.one_le

def one (A : Format) : A.Value where
  neg := false
  mag := 1
  nonneg := zero_le_one
  isValue := A.rounding.one
  le_greatest := A.one_le

/-- The sign turned over. -/
def opposite (x : A.Value) : A.Value := { x with neg := !x.neg }

/-- The sign dropped. -/
def abs (x : A.Value) : A.Value := { x with neg := false }

@[simp] theorem val_one : (one A).val = 1 := rfl

@[simp] theorem val_opposite (x : A.Value) : x.opposite.val = -x.val := by
  unfold val opposite
  cases x.neg with
  | false => rfl
  | true => exact (neg_neg _).symm

theorem abs_val (x : A.Value) : |x.val| = x.mag := by
  unfold val
  split
  · rw [abs_neg, abs_of_nonneg x.nonneg]
  · exact abs_of_nonneg x.nonneg

@[simp] theorem val_abs (x : A.Value) : x.abs.val = |x.val| := by
  rw [abs_val]
  rfl

theorem round_val (x : A.Value) : A.rounding.round x.val = x.val := by
  unfold val
  split
  · rw [A.rounding.odd, x.isValue]
  · exact x.isValue

theorem abs_val_le (x : A.Value) : |x.val| ≤ A.greatest := by
  rw [abs_val]
  exact x.le_greatest

end Value

-- ============================================================== numbers

namespace Number

/-- The sign of a result, `s` for an exact zero. -/
def signOf (s : Bool) (x : ℚ) : Bool := if x = 0 then s else decide (x < 0)

/-- The number that `x` is rounded to, with the sign `s` if `x` is
zero. -/
def ofRat (s : Bool) (x : ℚ) : A.Number :=
  if h : A.rounding.round |x| ≤ A.greatest then
    fin
      { neg := signOf s x
        mag := A.rounding.round |x|
        nonneg := Rounding.round_nonneg (abs_nonneg x)
        isValue := A.rounding.round_round _
        le_greatest := h }
  else inf (signOf s x)

def neg : A.Number → A.Number
  | fin x => fin x.opposite
  | inf s => inf (!s)
  | nan => nan

def abs : A.Number → A.Number
  | fin x => fin x.abs
  | inf _ => inf false
  | nan => nan

def add : A.Number → A.Number → A.Number
  | fin x, fin y => ofRat (x.neg && y.neg) (x.val + y.val)
  | fin _, inf s => inf s
  | inf s, fin _ => inf s
  | inf s, inf t => if s = t then inf s else nan
  | nan, _ | _, nan => nan

def mul : A.Number → A.Number → A.Number
  | fin x, fin y => ofRat (x.neg != y.neg) (x.val * y.val)
  | fin x, inf s => if x.mag = 0 then nan else inf (x.neg != s)
  | inf s, fin y => if y.mag = 0 then nan else inf (s != y.neg)
  | inf s, inf t => inf (s != t)
  | nan, _ | _, nan => nan

/-- The same number in another format, as near as that has it. -/
def convert : A.Number → B.Number
  | fin x => ofRat x.neg x.val
  | inf s => inf s
  | nan => nan

/-- `a ≤ b`; false when either is NaN. -/
def le : A.Number → A.Number → Bool
  | nan, _ | _, nan => false
  | inf true, _ => true
  | _, inf false => true
  | fin x, fin y => decide (x.val ≤ y.val)
  | _, _ => false

/-- `a < b`; false when either is NaN. -/
def lt (a b : A.Number) : Bool := le a b && !le b a

def isFinite : A.Number → Bool
  | fin _ => true
  | _ => false

/-- The rational that a finite number stands for. -/
def toRat? : A.Number → Option ℚ
  | fin x => some x.val
  | _ => none

instance : Zero A.Number := ⟨fin (.zero A)⟩
instance : One A.Number := ⟨fin (.one A)⟩
instance : Neg A.Number := ⟨neg⟩
instance : Add A.Number := ⟨add⟩
instance : Sub A.Number := ⟨fun a b => a + -b⟩
instance : Mul A.Number := ⟨mul⟩

theorem isFinite_iff {a : A.Number} :
    a.isFinite = true ↔ ∃ x, a = fin x := by
  cases a with
  | fin x => exact ⟨fun _ => ⟨x, rfl⟩, fun _ => rfl⟩
  | inf s => simp [isFinite]
  | nan => simp [isFinite]

-- =========================================================== arithmetic

theorem neg_fin (x : A.Value) : -fin x = fin x.opposite := rfl

theorem sub_def (a b : A.Number) : a - b = a + -b := rfl

theorem fin_add_fin (x y : A.Value) :
    fin x + fin y = ofRat (x.neg && y.neg) (x.val + y.val) := rfl

theorem fin_mul_fin (x y : A.Value) :
    fin x * fin y = ofRat (x.neg != y.neg) (x.val * y.val) := rfl

@[simp] theorem nan_add (a : A.Number) : nan + a = nan := by
  cases a <;> rfl

@[simp] theorem add_nan (a : A.Number) : a + nan = nan := by
  cases a <;> rfl

@[simp] theorem nan_mul (a : A.Number) : nan * a = nan := by
  cases a <;> rfl

theorem add_swap (a b : A.Number) : a + b = b + a := by
  cases a with
  | fin x =>
      cases b with
      | fin y =>
          rw [fin_add_fin, fin_add_fin, Bool.and_comm, add_comm]
      | inf s => rfl
      | nan => rfl
  | inf s =>
      cases b with
      | fin y => rfl
      | inf t =>
          show (if s = t then inf s else nan)
            = if t = s then inf t else nan
          by_cases h : s = t
          · rw [h]
          · rw [if_neg h, if_neg (Ne.symm h)]
      | nan => rfl
  | nan => rw [nan_add, add_nan]

-- ============================================================ rounding

theorem signOf_neg (s : Bool) (x : ℚ) : signOf (!s) (-x) = !signOf s x := by
  unfold signOf
  rcases lt_trichotomy x 0 with hx | rfl | hx
  · rw [if_neg (by linarith), if_neg hx.ne, decide_eq_true hx,
      decide_eq_false (by linarith)]
    rfl
  · rw [if_pos neg_zero, if_pos rfl]
  · rw [if_neg (by linarith), if_neg hx.ne', decide_eq_true (by linarith),
      decide_eq_false (by linarith)]
    rfl

/-- A rounded number that is not past the greatest is a value. -/
theorem ofRat_fin (s : Bool) {x : ℚ}
    (h : |A.rounding.round x| ≤ A.greatest) :
    ∃ v : A.Value, ofRat s x = fin v ∧ v.val = A.rounding.round x := by
  rw [← A.rounding.round_abs] at h
  unfold ofRat
  rw [dif_pos h]
  refine ⟨_, rfl, ?_⟩
  unfold Value.val signOf
  by_cases hx : x = 0
  case pos => simp [hx]
  simp only [if_neg hx, decide_eq_true_eq]
  split
  next hlt => rw [abs_of_neg hlt, A.rounding.odd, neg_neg]
  next hge => rw [abs_of_nonneg (not_lt.mp hge)]

/-- What is rounded past it is an infinity. -/
theorem ofRat_cases (s : Bool) (x : ℚ) :
    (∃ v : A.Value, ofRat s x = fin v ∧ v.val = A.rounding.round x)
      ∨ (ofRat s x = (inf false : A.Number)
        ∧ A.greatest < A.rounding.round x)
      ∨ (ofRat s x = (inf true : A.Number)
        ∧ A.rounding.round x < -A.greatest) := by
  by_cases h : |A.rounding.round x| ≤ A.greatest
  case pos => exact Or.inl (ofRat_fin s h)
  right
  have hinf : ofRat s x = (inf (signOf s x) : A.Number) := by
    rw [← A.rounding.round_abs] at h
    exact dif_neg h
  rw [hinf]
  unfold signOf
  rcases lt_trichotomy x 0 with hx | rfl | hx
  · right
    have hround := A.rounding.round_mono hx.le
    rw [A.rounding.round_zero] at hround
    rw [abs_of_nonpos hround] at h
    rw [if_neg hx.ne, decide_eq_true hx]
    exact ⟨rfl, by linarith⟩
  · rw [A.rounding.round_zero, abs_zero] at h
    exact absurd (zero_le_one.trans A.one_le) h
  · left
    rw [abs_of_nonneg (Rounding.round_nonneg hx.le)] at h
    rw [if_neg hx.ne', decide_eq_false hx.le.not_gt]
    exact ⟨rfl, not_le.mp h⟩

theorem ofRat_ne_nan (s : Bool) (x : ℚ) : ofRat s x ≠ (nan : A.Number) := by
  unfold ofRat
  split
  · simp
  · simp

theorem neg_ofRat (s : Bool) (x : ℚ) :
    -(ofRat s x : A.Number) = ofRat (!s) (-x) := by
  unfold ofRat
  by_cases h : A.rounding.round |x| ≤ A.greatest
  case pos =>
    rw [dif_pos h, dif_pos (by rwa [abs_neg]), neg_fin]
    refine congrArg fin (Value.ext ?_ ?_)
    · exact (signOf_neg s x).symm
    · show A.rounding.round |x| = A.rounding.round |-x|
      rw [abs_neg]
  rw [dif_neg h, dif_neg (by rwa [abs_neg]), signOf_neg]
  rfl

-- =============================================================== order

@[simp] theorem nan_le (a : A.Number) : le nan a = false := by
  cases a <;> rfl

@[simp] theorem le_nan (a : A.Number) : le a nan = false := by
  cases a with
  | fin x => rfl
  | inf s => cases s <;> rfl
  | nan => rfl

/-- Below everything that is a number. -/
theorem negInf_le {a : A.Number} (h : a ≠ nan) :
    le (inf true) a = true := by
  cases a with
  | fin x => rfl
  | inf s => rfl
  | nan => exact absurd rfl h

/-- Above everything that is a number. -/
theorem le_posInf {a : A.Number} (h : a ≠ nan) :
    le a (inf false) = true := by
  cases a with
  | fin x => rfl
  | inf s => cases s <;> rfl
  | nan => exact absurd rfl h

theorem fin_le_fin {x y : A.Value} :
    le (fin x) (fin y) = true ↔ x.val ≤ y.val := decide_eq_true_iff

/-- What is between finite numbers is finite. -/
theorem fin_of_between {x y : A.Value} {a : A.Number}
    (hx : le (fin x) a = true) (hy : le a (fin y) = true) :
    ∃ v, a = fin v ∧ x.val ≤ v.val ∧ v.val ≤ y.val := by
  cases a with
  | fin v => exact ⟨v, rfl, fin_le_fin.mp hx, fin_le_fin.mp hy⟩
  | inf s =>
      cases s with
      | false => cases hy
      | true => cases hx
  | nan => simp at hx

theorem fin_lt_fin {x y : A.Value} :
    lt (fin x) (fin y) = true ↔ x.val < y.val := by
  unfold lt
  rw [Bool.and_eq_true, fin_le_fin, Bool.not_eq_true',
    ← Bool.not_eq_true, fin_le_fin, not_le]
  exact ⟨And.right, fun h => ⟨h.le, h⟩⟩

/-- Rounding keeps the order. -/
theorem ofRat_le (s t : Bool) {x y : ℚ} (h : x ≤ y) :
    le (ofRat s x) (ofRat t y : A.Number) = true := by
  have hround := A.rounding.round_mono h
  have hpos := A.one_le
  rcases ofRat_cases (A := A) s x with
    ⟨v, hv, hval⟩ | ⟨hv, hover⟩ | ⟨hv, -⟩
  · rcases ofRat_cases (A := A) t y with
      ⟨w, hw, hval'⟩ | ⟨hw, -⟩ | ⟨hw, hunder⟩
    · rw [hv, hw, fin_le_fin, hval, hval']
      exact hround
    · rw [hw]
      exact le_posInf (ofRat_ne_nan s x)
    · have := (abs_le.mp (Value.abs_val_le v)).1
      linarith
  · rcases ofRat_cases (A := A) t y with
      ⟨w, hw, hval'⟩ | ⟨hw, -⟩ | ⟨hw, hunder⟩
    · have := (abs_le.mp (Value.abs_val_le w)).2
      linarith
    · rw [hw]
      exact le_posInf (ofRat_ne_nan s x)
    · linarith
  · rw [hv]
    exact negInf_le (ofRat_ne_nan t y)

/-- An operation that rounds a monotone function of the values, and
leaves the infinities, keeps the order. -/
theorem le_of_rounded {f : A.Number → B.Number} {s : A.Value → Bool}
    {m : A.Value → ℚ} (hfin : ∀ x, f (fin x) = ofRat (s x) (m x))
    (hinf : ∀ t, f (inf t) = inf t)
    (hmono : ∀ x y : A.Value, x.val ≤ y.val → m x ≤ m y)
    {p q : A.Number} (h : le p q = true) : le (f p) (f q) = true := by
  cases p with
  | nan => simp at h
  | fin x =>
      cases q with
      | nan => simp at h
      | fin y =>
          rw [hfin, hfin]
          exact ofRat_le _ _ (hmono x y (fin_le_fin.mp h))
      | inf t =>
          cases t with
          | false =>
              rw [hfin, hinf]
              exact le_posInf (ofRat_ne_nan _ _)
          | true => cases h
  | inf s =>
      cases q with
      | nan => simp at h
      | fin y =>
          cases s with
          | true =>
              rw [hinf, hfin]
              exact negInf_le (ofRat_ne_nan _ _)
          | false => cases h
      | inf t =>
          rw [hinf, hinf]
          cases s with
          | true => rfl
          | false => cases t with
            | false => rfl
            | true => cases h

/-- Sums with a finite number. -/
theorem fin_add_le (b : A.Value) {p q : A.Number} (h : le p q = true) :
    le (fin b + p) (fin b + q) = true :=
  le_of_rounded (fin_add_fin b) (fun _ => rfl)
    (fun _ _ hxy => add_le_add_right hxy _) h

/-- The same numbers in another format. -/
theorem convert_le {p q : A.Number} (h : le p q = true) :
    le (convert p) (convert q : B.Number) = true :=
  le_of_rounded (fun _ => rfl) (fun _ => rfl) (fun _ _ hxy => hxy) h

/-- A product of values, against the product of greater magnitudes. -/
theorem mul_le {x c k : A.Value} (h : |x.val| ≤ c.val) :
    le (-(fin c * abs (fin k))) (fin x * fin k) = true
      ∧ le (fin x * fin k) (fin c * abs (fin k)) = true := by
  have hprod : |x.val * k.val| ≤ c.val * k.abs.val := by
    rw [abs_mul, Value.val_abs]
    exact mul_le_mul_of_nonneg_right h (abs_nonneg _)
  have hbound := abs_le.mp hprod
  have habs : abs (fin k) = fin k.abs := rfl
  rw [habs, fin_mul_fin, fin_mul_fin, neg_ofRat]
  exact ⟨ofRat_le _ _ hbound.1, ofRat_le _ _ hbound.2⟩

-- ================================================== the moving average

/-- A number no greater than a value is not rounded past it. -/
theorem ofRat_of_abs_le (s : Bool) {x : ℚ} {v : A.Value}
    (h : |x| ≤ |v.val|) :
    ∃ w : A.Value, ofRat s x = fin w ∧ w.val = A.rounding.round x := by
  apply ofRat_fin
  have hround := Rounding.abs_round_le (R := A.rounding) h
  rw [A.rounding.round_abs, v.round_val] at hround
  exact hround.trans v.abs_val_le

/-- The weight of the old value. -/
theorem one_sub {b : A.Value} (hb : 0 ≤ b.val) (hb₁ : b.val ≤ 1) :
    ∃ keep : A.Value, 1 - fin b = fin keep
      ∧ 0 ≤ keep.val ∧ keep.val ≤ 1 := by
  have hle : |1 + b.opposite.val| ≤ |(Value.one A).val| := by
    rw [Value.val_opposite, Value.val_one, abs_one, abs_le]
    constructor <;> linarith
  obtain ⟨keep, hkeep, hval⟩ := ofRat_of_abs_le false hle
  rw [Value.val_opposite] at hval
  have hround : A.rounding.round (1 + -b.val) ≤ A.rounding.round 1 :=
    A.rounding.round_mono (by linarith)
  rw [A.rounding.one] at hround
  refine ⟨keep, hkeep, ?_, ?_⟩
  · rw [hval]
    exact Rounding.round_nonneg (by linarith)
  · rw [hval]
    exact hround

/-- A share of a value is a value. -/
theorem share_fin {a x : A.Value} (ha : 0 ≤ a.val) (ha₁ : a.val ≤ 1) :
    ∃ w : A.Value, fin a * fin x = fin w
      ∧ w.val = A.rounding.round (a.val * x.val) := by
  apply ofRat_of_abs_le (v := x)
  rw [abs_mul, abs_of_nonneg ha]
  exact mul_le_of_le_one_left (abs_nonneg _) ha₁

/-- One step of the average keeps what keeps NaN away: the average is a
number, and a finite one where its weight is zero. -/
theorem step_ne_nan {keep b x : A.Value} {l : A.Number}
    (hkeep : 0 ≤ keep.val) (hkeep₁ : keep.val ≤ 1) (hb : 0 ≤ b.val)
    (hb₁ : b.val ≤ 1)
    (hl : l ≠ nan ∧ (keep.val = 0 → l.isFinite = true)) :
    fin keep * l + fin b * fin x ≠ nan
      ∧ (keep.val = 0 →
        (fin keep * l + fin b * fin x).isFinite = true) := by
  obtain ⟨new, hnew, -⟩ := share_fin (x := x) hb hb₁
  rw [hnew]
  cases l with
  | nan => exact absurd rfl hl.1
  | fin y =>
      obtain ⟨old, hold, hval⟩ := share_fin (x := y) hkeep hkeep₁
      rw [hold]
      refine ⟨ofRat_ne_nan _ _, ?_⟩
      intro hzero
      rw [hzero, zero_mul, A.rounding.round_zero] at hval
      have hle : |old.val + new.val| ≤ |new.val| := by
        rw [hval, zero_add]
      obtain ⟨w, hw, -⟩ :=
        ofRat_of_abs_le (old.neg && new.neg) hle
      rw [fin_add_fin, hw]
      rfl
  | inf s =>
      -- an overflow stays one, as its weight is not zero
      have hpos : keep.mag ≠ 0 := by
        intro hmag
        have hval : keep.val = 0 := by
          rw [← abs_eq_zero, Value.abs_val, hmag]
        exact absurd (hl.2 hval) (by simp [isFinite])
      have hmul : fin keep * inf s = inf (keep.neg != s) := if_neg hpos
      have hadd : fin keep * inf s + fin new = inf (keep.neg != s) := by
        rw [hmul]
        rfl
      rw [hadd]
      refine ⟨by simp, ?_⟩
      intro hzero
      exact absurd (hl.2 hzero) (by simp [isFinite])

/-- The moving average of finite values is a number: it may overflow,
but then it stays infinite. -/
theorem average_ne_nan {b : A.Value} (hb : 0 ≤ b.val) (hb₁ : b.val ≤ 1)
    {rs : List A.Number} (hrs : ∀ r ∈ rs, r.isFinite = true) :
    rs.foldl (fun l r => (1 - fin b) * l + fin b * r) 0 ≠ nan := by
  obtain ⟨keep, hkeep, hkeep₀, hkeep₁⟩ := one_sub hb hb₁
  rw [hkeep]
  suffices h : rs.foldl (fun l r => fin keep * l + fin b * r) 0 ≠ nan
      ∧ (keep.val = 0 → (rs.foldl
        (fun l r => fin keep * l + fin b * r) 0).isFinite = true) from h.1
  induction rs using List.reverseRecOn with
  | nil => exact ⟨by simp, fun _ => rfl⟩
  | append_singleton rs r ih =>
      obtain ⟨x, rfl⟩ := isFinite_iff.mp (hrs r (by simp))
      rw [List.foldl_append]
      exact step_ne_nan hkeep₀ hkeep₁ hb hb₁
        (ih fun r' hr' => hrs r' (List.mem_append_left _ hr'))

end Number

end Format

end RlDeploy.Lib
