/-
Exponential moving averages: the recurrence `x ← (1 - b) * x + b * r`
from zero over a list of values.

- In closed form it is the sum of the values with geometrically fading
  weights (`ema_eq_sum`).
- For `b` between zero and one each step is a convex combination, so the
  average stays between any bounds of zero and the values (`le_ema`,
  `ema_le`), in particular between the least and the greatest of them.
- Two averages over the same values from different starts approach each
  other by the factor `1 - b` a value (`emaFrom_sub`).
-/
import Mathlib.Algebra.BigOperators.Ring.Finset
import Mathlib.Data.List.GetD
import Mathlib.Tactic

namespace RlDeploy.Lib

section Ring

variable {K : Type} [CommRing K]

/-- One step: the old average and the new value, weighted. -/
def emaStep (b x r : K) : K := (1 - b) * x + b * r

/-- The average of a list of values, in order, from zero. -/
def ema (b : K) (xs : List K) : K := xs.foldl (emaStep b) 0

@[simp] theorem ema_nil (b : K) : ema b [] = 0 := rfl

theorem ema_snoc (b : K) (xs : List K) (r : K) :
    ema b (xs ++ [r]) = (1 - b) * ema b xs + b * r := by
  unfold ema
  rw [List.foldl_append]
  rfl

/-- The closed form: the value `j` steps before the last has the weight
`b * (1 - b) ^ j`. -/
theorem ema_eq_sum (b : K) (xs : List K) :
    ema b xs = ∑ j ∈ Finset.range xs.length,
      b * (1 - b) ^ (xs.length - 1 - j) * xs.getD j 0 := by
  induction xs using List.reverseRecOn with
  | nil => simp
  | append_singleton xs r ih =>
      have hlen : (xs ++ [r]).length = xs.length + 1 := by simp
      -- an earlier value has one more factor than it had
      have hold : ∀ j ∈ Finset.range xs.length,
          b * (1 - b) ^ (xs.length + 1 - 1 - j) * (xs ++ [r]).getD j 0
            = (1 - b)
              * (b * (1 - b) ^ (xs.length - 1 - j) * xs.getD j 0) := by
        intro j hj
        have hlt := Finset.mem_range.mp hj
        have hexp : xs.length + 1 - 1 - j = xs.length - 1 - j + 1 := by
          omega
        rw [hexp, List.getD_append _ _ _ _ hlt, pow_succ]
        ring
      have hnew : (xs ++ [r]).getD xs.length 0 = r := by simp
      rw [ema_snoc, ih, hlen, Finset.sum_range_succ,
        Finset.sum_congr rfl hold, ← Finset.mul_sum, hnew]
      simp

/-- The average that goes on from `x` over a list of values. -/
def emaFrom (b x : K) (rs : List K) : K := rs.foldl (emaStep b) x

/-- Where two averages started fades with every value, by the same
factor each time, whatever the values. -/
theorem emaFrom_sub (b : K) : ∀ (rs : List K) (x y : K),
    emaFrom b x rs - emaFrom b y rs = (1 - b) ^ rs.length * (x - y) := by
  intro rs
  induction rs with
  | nil =>
      intro x y
      show x - y = (1 - b) ^ 0 * (x - y)
      rw [pow_zero, one_mul]
  | cons r rs ih =>
      intro x y
      show emaFrom b (emaStep b x r) rs - emaFrom b (emaStep b y r) rs = _
      rw [ih, List.length_cons]
      unfold emaStep
      ring

end Ring

section Order

variable {K : Type} [CommRing K] [LinearOrder K] [IsStrictOrderedRing K]
  {b : K} {xs : List K}

/-- Below zero and all values is below the average. -/
theorem le_ema (hb : 0 ≤ b) (hb₁ : b ≤ 1) {lo : K} (hlo : lo ≤ 0)
    (hxs : ∀ x ∈ xs, lo ≤ x) : lo ≤ ema b xs := by
  induction xs using List.reverseRecOn with
  | nil => exact hlo
  | append_singleton xs r ih =>
      have hrest := ih fun x hx => hxs x (List.mem_append_left _ hx)
      have hr := hxs r (by simp)
      rw [ema_snoc]
      calc lo = (1 - b) * lo + b * lo := by ring
        _ ≤ (1 - b) * ema b xs + b * r := by
          apply add_le_add
          · exact mul_le_mul_of_nonneg_left hrest (sub_nonneg.mpr hb₁)
          · exact mul_le_mul_of_nonneg_left hr hb

/-- Above zero and all values is above the average. -/
theorem ema_le (hb : 0 ≤ b) (hb₁ : b ≤ 1) {hi : K} (hhi : 0 ≤ hi)
    (hxs : ∀ x ∈ xs, x ≤ hi) : ema b xs ≤ hi := by
  induction xs using List.reverseRecOn with
  | nil => exact hhi
  | append_singleton xs r ih =>
      have hrest := ih fun x hx => hxs x (List.mem_append_left _ hx)
      have hr := hxs r (by simp)
      rw [ema_snoc]
      calc (1 - b) * ema b xs + b * r
          ≤ (1 - b) * hi + b * hi := by
            apply add_le_add
            · exact mul_le_mul_of_nonneg_left hrest (sub_nonneg.mpr hb₁)
            · exact mul_le_mul_of_nonneg_left hr hb
        _ = hi := by ring

omit [IsStrictOrderedRing K] in
/-- The least of zero and the values is a bound of both. -/
theorem foldr_min_le (xs : List K) :
    xs.foldr min 0 ≤ 0 ∧ ∀ x ∈ xs, xs.foldr min 0 ≤ x := by
  induction xs with
  | nil => exact ⟨le_refl _, by simp⟩
  | cons y ys ih =>
      refine ⟨(min_le_right _ _).trans ih.1, fun x hx => ?_⟩
      rcases List.mem_cons.mp hx with rfl | hx
      · exact min_le_left _ _
      · exact (min_le_right _ _).trans (ih.2 x hx)

omit [IsStrictOrderedRing K] in
/-- So is the greatest. -/
theorem le_foldr_max (xs : List K) :
    0 ≤ xs.foldr max 0 ∧ ∀ x ∈ xs, x ≤ xs.foldr max 0 := by
  induction xs with
  | nil => exact ⟨le_refl _, by simp⟩
  | cons y ys ih =>
      refine ⟨ih.1.trans (le_max_right _ _), fun x hx => ?_⟩
      rcases List.mem_cons.mp hx with rfl | hx
      · exact le_max_left _ _
      · exact (ih.2 x hx).trans (le_max_right _ _)

/-- The average is between the least and the greatest of zero and the
values. -/
theorem ema_between (hb : 0 ≤ b) (hb₁ : b ≤ 1) (xs : List K) :
    xs.foldr min 0 ≤ ema b xs ∧ ema b xs ≤ xs.foldr max 0 := by
  obtain ⟨hlo, hmin⟩ := foldr_min_le xs
  obtain ⟨hhi, hmax⟩ := le_foldr_max xs
  exact ⟨le_ema hb hb₁ hlo hmin, ema_le hb hb₁ hhi hmax⟩

end Order

end RlDeploy.Lib
