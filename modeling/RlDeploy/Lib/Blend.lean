/-
Moving a value from a start to an end within a given time, over an
ordered field.

# The curve

`smoothstep` is the cubic `t * t * (3 - 2 * t)`. On the unit interval it
rises from `0` to `1` (`smoothstep_mono`).

# The track

`track s e d t` is where the value is at time `t`: on the curve from `s`
to `e` while `t` is below the duration `d`, and at `e` from then on. For
every duration, also none or a negative one, and every time from `0` on

- it lies between `s` and `e` (`track_mem`),
- it only moves towards `e` (`track_monotoneOn`, `track_antitoneOn`),
- it is at `e` once the duration is over (`track_of_le`),
- within a positive duration it is never faster than one and a half
  times the mean speed (`abs_track_sub_le`).

Before time `0` it still lies between the ends for a while
(`track_mem_iff`).

From time `0` on the curve is used at `t / d` with `0 ≤ t < d` alone, so
`d` is positive there.
-/
import Mathlib.Tactic
import Mathlib.Order.Interval.Set.UnorderedInterval

namespace RlDeploy.Lib

variable {K : Type} [Field K] [LinearOrder K] [IsStrictOrderedRing K]

/-- The cubic blend. -/
def smoothstep (t : K) : K := t * t * ((3 : ℕ) - (2 : ℕ) * t)

/-- The value at time `t` on its way from `s` to `e` in time `d`. -/
def track (s e d t : K) : K :=
  if d ≤ t then e else s + (e - s) * smoothstep (t / d)

-- ========================================================= the curve

omit [LinearOrder K] [IsStrictOrderedRing K] in
@[simp] theorem smoothstep_zero : smoothstep (0 : K) = 0 := by
  unfold smoothstep
  ring

omit [LinearOrder K] [IsStrictOrderedRing K] in
@[simp] theorem smoothstep_one : smoothstep (1 : K) = 1 := by
  unfold smoothstep
  push_cast
  ring

/-- The curve rises on the unit interval. -/
theorem smoothstep_mono {x y : K} (hx : 0 ≤ x) (hxy : x ≤ y)
    (hy : y ≤ 1) : smoothstep x ≤ smoothstep y := by
  have hx1 : x ≤ 1 := hxy.trans hy
  have hy0 : 0 ≤ y := hx.trans hxy
  -- the slope between the two points, times their distance
  have hslope : 0 ≤ 3 * (x + y) - 2 * (x * x + x * y + y * y) := by
    have hxx : x * x ≤ x := mul_le_of_le_one_right hx hx1
    have hyy : y * y ≤ y := mul_le_of_le_one_right hy0 hy
    have hxy₁ : x * y ≤ x := mul_le_of_le_one_right hx hy
    have hxy₂ : x * y ≤ y := mul_le_of_le_one_left hy0 hx1
    linarith
  have hdiff : smoothstep y - smoothstep x
      = (y - x) * (3 * (x + y) - 2 * (x * x + x * y + y * y)) := by
    unfold smoothstep
    push_cast
    ring
  have hprod := mul_nonneg (sub_nonneg.mpr hxy) hslope
  rw [← hdiff] at hprod
  exact sub_nonneg.mp hprod

theorem smoothstep_nonneg {x : K} (hx : 0 ≤ x) (hx1 : x ≤ 1) :
    0 ≤ smoothstep x := by
  rw [← smoothstep_zero (K := K)]
  exact smoothstep_mono le_rfl hx hx1

theorem smoothstep_le_one {x : K} (hx : 0 ≤ x) (hx1 : x ≤ 1) :
    smoothstep x ≤ 1 := by
  rw [← smoothstep_one (K := K)]
  exact smoothstep_mono hx hx1 le_rfl

-- ========================================================= the track

/-- A weight of the unit interval puts a value between the ends. -/
theorem blend_mem {s e w : K} (hw : 0 ≤ w) (hw1 : w ≤ 1) :
    s + (e - s) * w ∈ Set.uIcc s e := by
  rcases le_total s e with h | h
  · have hd : 0 ≤ e - s := sub_nonneg.mpr h
    have hlow := mul_nonneg hd hw
    have hhigh := mul_le_of_le_one_right hd hw1
    rw [Set.uIcc_of_le h]
    constructor <;> linarith
  · have hd : 0 ≤ s - e := sub_nonneg.mpr h
    have hlow := mul_nonneg hd hw
    have hhigh := mul_le_of_le_one_right hd hw1
    rw [Set.uIcc_of_ge h]
    constructor <;> linarith

/-- Before the end of the duration the elapsed part of it lies in the
unit interval. -/
theorem elapsed_part {d t : K} (ht : 0 ≤ t) (htd : ¬ d ≤ t) :
    0 ≤ t / d ∧ t / d ≤ 1 := by
  have hlt : t < d := not_le.mp htd
  have hd : 0 < d := ht.trans_lt hlt
  exact ⟨div_nonneg ht hd.le, (div_le_one hd).mpr hlt.le⟩

omit [IsStrictOrderedRing K] in
theorem track_of_le {s e d t : K} (h : d ≤ t) : track s e d t = e :=
  if_pos h

theorem track_mem (s e d : K) {t : K} (ht : 0 ≤ t) :
    track s e d t ∈ Set.uIcc s e := by
  unfold track
  by_cases htd : d ≤ t
  · rw [if_pos htd]
    exact Set.right_mem_uIcc
  · obtain ⟨h0, h1⟩ := elapsed_part ht htd
    rw [if_neg htd]
    apply blend_mem
    · exact smoothstep_nonneg h0 h1
    · exact smoothstep_le_one h0 h1

/-- The weight of the end value only grows. -/
theorem smoothstep_elapsed {d t u : K} (ht : 0 ≤ t) (htu : t ≤ u)
    (hud : ¬ d ≤ u) : smoothstep (t / d) ≤ smoothstep (u / d) := by
  have hd : 0 < d := (ht.trans htu).trans_lt (not_le.mp hud)
  apply smoothstep_mono
  · exact div_nonneg ht hd.le
  · exact div_le_div_of_nonneg_right htu hd.le
  · exact (elapsed_part (ht.trans htu) hud).2

/-- Towards a higher end the value never goes down. -/
theorem track_monotoneOn {s e : K} (h : s ≤ e) (d : K) :
    MonotoneOn (track s e d) (Set.Ici 0) := by
  intro t ht u _ htu
  by_cases hud : d ≤ u
  · rw [track_of_le hud]
    have hmem := track_mem s e d ht
    rw [Set.uIcc_of_le h] at hmem
    exact hmem.2
  · have htd : ¬ d ≤ t := fun hdt => hud (hdt.trans htu)
    unfold track
    rw [if_neg htd, if_neg hud]
    apply add_le_add_right
    apply mul_le_mul_of_nonneg_left
    · exact smoothstep_elapsed ht htu hud
    · exact sub_nonneg.mpr h

/-- Towards a lower end it never goes up. -/
theorem track_antitoneOn {s e : K} (h : e ≤ s) (d : K) :
    AntitoneOn (track s e d) (Set.Ici 0) := by
  intro t ht u _ htu
  by_cases hud : d ≤ u
  · rw [track_of_le hud]
    have hmem := track_mem s e d ht
    rw [Set.uIcc_of_ge h] at hmem
    exact hmem.1
  · have htd : ¬ d ≤ t := fun hdt => hud (hdt.trans htu)
    unfold track
    rw [if_neg htd, if_neg hud]
    apply add_le_add_right
    apply mul_le_mul_of_nonpos_left
    · exact smoothstep_elapsed ht htu hud
    · exact sub_nonpos.mpr h

-- ========================================================= the speed

/-- The slope of the curve halfway, where it is steepest. -/
def peakSlope (K : Type) [Field K] : K := (3 : ℕ) / (2 : ℕ)

theorem peakSlope_nonneg : 0 ≤ peakSlope K := by
  unfold peakSlope
  positivity

/-- The curve is nowhere steeper than halfway. -/
theorem smoothstep_sub_le {x y : K} (hxy : x ≤ y) :
    smoothstep y - smoothstep x ≤ peakSlope K * (y - x) := by
  -- what the slope between two points lacks, around the middle
  have hlack : 0 ≤ (x - 1 / 2 + (y - 1 / 2)) ^ 2 + (x - 1 / 2) ^ 2
      + (y - 1 / 2) ^ 2 := by positivity
  have hdiff : peakSlope K * (y - x) - (smoothstep y - smoothstep x)
      = (y - x) * ((x - 1 / 2 + (y - 1 / 2)) ^ 2 + (x - 1 / 2) ^ 2
        + (y - 1 / 2) ^ 2) := by
    unfold smoothstep peakSlope
    push_cast
    ring
  have hprod := mul_nonneg (sub_nonneg.mpr hxy) hlack
  rw [← hdiff] at hprod
  exact sub_nonneg.mp hprod

/-- The weight of the end value at a time, `1` once it is over. -/
theorem track_eq_blend (s e : K) {d t : K} (hd : 0 < d) :
    track s e d t = s + (e - s) * smoothstep (min (t / d) 1) := by
  unfold track
  by_cases hdt : d ≤ t
  · rw [if_pos hdt, min_eq_right ((one_le_div hd).mpr hdt),
      smoothstep_one]
    ring
  · rw [if_neg hdt,
      min_eq_left ((div_le_one hd).mpr (not_le.mp hdt).le)]

/-- On its way the value is never faster than the peak slope times the
mean speed. -/
theorem abs_track_sub_le (s e : K) {d t u : K} (hd : 0 < d)
    (ht : 0 ≤ t) (htu : t ≤ u) :
    |track s e d u - track s e d t|
      ≤ peakSlope K * (|e - s| / d) * (u - t) := by
  have hx0 : 0 ≤ min (t / d) 1 :=
    le_min (div_nonneg ht hd.le) zero_le_one
  have hxy : min (t / d) 1 ≤ min (u / d) 1 :=
    min_le_min_right 1 (div_le_div_of_nonneg_right htu hd.le)
  have hparts : min (u / d) 1 - min (t / d) 1 ≤ (u - t) / d := by
    rw [sub_div]
    have hle := abs_min_sub_min_le_max (u / d) 1 (t / d) 1
    rw [sub_self, abs_zero, max_eq_left (abs_nonneg _),
      abs_of_nonneg (sub_nonneg.mpr hxy),
      abs_of_nonneg (sub_nonneg.mpr
        (div_le_div_of_nonneg_right htu hd.le))] at hle
    exact hle
  have hrise : 0 ≤ smoothstep (min (u / d) 1)
      - smoothstep (min (t / d) 1) :=
    sub_nonneg.mpr (smoothstep_mono hx0 hxy (min_le_right _ _))
  rw [track_eq_blend s e hd, track_eq_blend s e hd,
    add_sub_add_left_eq_sub, ← mul_sub, abs_mul, abs_of_nonneg hrise]
  calc |e - s| * (smoothstep (min (u / d) 1)
        - smoothstep (min (t / d) 1))
      ≤ |e - s| * (peakSlope K * ((u - t) / d)) := by
        apply mul_le_mul_of_nonneg_left _ (abs_nonneg _)
        exact (smoothstep_sub_le hxy).trans
          (mul_le_mul_of_nonneg_left hparts peakSlope_nonneg)
    _ = peakSlope K * (|e - s| / d) * (u - t) := by ring

-- ==================================================== before the start

/-- The curve leaves the unit interval only half a unit away from it. -/
theorem smoothstep_mem_iff {t : K} :
    (0 ≤ smoothstep t ∧ smoothstep t ≤ 1)
      ↔ -(1 / 2) ≤ t ∧ t ≤ 3 / 2 := by
  have hlow : smoothstep t = t * t * (3 - 2 * t) := by
    unfold smoothstep
    push_cast
    rfl
  have hhigh : 1 - smoothstep t = (1 - t) * (1 - t) * (1 + 2 * t) := by
    rw [hlow]
    ring
  constructor
  · intro ⟨h0, h1⟩
    constructor
    · by_contra hlt
      have hneg : (1 - t) * (1 - t) * (1 + 2 * t) < 0 :=
        mul_neg_of_pos_of_neg (by nlinarith) (by linarith)
      linarith
    · by_contra hgt
      have hneg : t * t * (3 - 2 * t) < 0 :=
        mul_neg_of_pos_of_neg (by nlinarith) (by linarith)
      linarith
  · intro ⟨h0, h1⟩
    constructor
    · rw [hlow]
      exact mul_nonneg (mul_self_nonneg t) (by linarith)
    · have : 0 ≤ (1 - t) * (1 - t) * (1 + 2 * t) :=
        mul_nonneg (mul_self_nonneg _) (by linarith)
      linarith

/-- Between two different ends are the values with a weight of the unit
interval. -/
theorem blend_mem_iff {s e w : K} (hse : s ≠ e) :
    s + (e - s) * w ∈ Set.uIcc s e ↔ 0 ≤ w ∧ w ≤ 1 := by
  constructor
  · intro h
    rcases lt_or_gt_of_ne hse with hlt | hgt
    · have hpos : 0 < e - s := sub_pos.mpr hlt
      rw [Set.uIcc_of_le hlt.le] at h
      obtain ⟨hlo, hhi⟩ := h
      constructor
      · exact nonneg_of_mul_nonneg_right (by linarith) hpos
      · exact le_of_mul_le_mul_left (by linarith) hpos
    · have hpos : 0 < s - e := sub_pos.mpr hgt
      rw [Set.uIcc_of_ge hgt.le] at h
      obtain ⟨hlo, hhi⟩ := h
      constructor
      · exact nonneg_of_mul_nonneg_right (by linarith) hpos
      · exact le_of_mul_le_mul_left (by linarith) hpos
  · intro h
    exact blend_mem h.1 h.2

/-- The value is between two different ends from half a duration before
the start on; on a negative duration, from half of it before its end
on. -/
theorem track_mem_iff {s e d t : K} (hse : s ≠ e) (hd : d ≠ 0) :
    track s e d t ∈ Set.uIcc s e ↔ min (-(d / 2)) (3 / 2 * d) ≤ t := by
  by_cases hdt : d ≤ t
  case pos =>
    rw [track_of_le hdt]
    refine iff_of_true Set.right_mem_uIcc ?_
    rcases lt_or_gt_of_ne hd with hneg | hpos
    · exact (min_le_right _ _).trans (by linarith)
    · exact (min_le_left _ _).trans (by linarith)
  rw [not_le] at hdt
  unfold track
  rw [if_neg (not_le.mpr hdt), blend_mem_iff hse, smoothstep_mem_iff]
  rcases lt_or_gt_of_ne hd with hneg | hpos
  · have hone : 1 < t / d := (one_lt_div_of_neg hneg).mpr hdt
    rw [min_eq_right (by linarith), div_le_iff_of_neg hneg]
    constructor
    · exact fun h => h.2
    · exact fun h => ⟨by linarith, h⟩
  · have hone : t / d < 1 := (div_lt_one hpos).mpr hdt
    rw [min_eq_left (by linarith), le_div_iff₀ hpos]
    constructor
    · intro h
      linarith [h.1]
    · exact fun h => ⟨by linarith, by linarith⟩

end RlDeploy.Lib
