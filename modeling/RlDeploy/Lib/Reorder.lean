/-
Reorderings of vectors.

A `Reordering n` is a list of the places `0, …, n-1`, each exactly once;
`apply` lists the entries of a vector of length `n` in that order. What a
loop computes entry by entry commutes with it (`apply_map`,
`apply_zipWith`, `apply_replicate`), and what is looked up under a name
does not see it, when the names are reordered with the values
(`valueAt_apply`).
-/
import RlDeploy.Lib.Scatter

namespace RlDeploy.Lib

variable {α β γ : Type}

/-- The places below `n` in some order. -/
structure Reordering (n : Nat) where
  places : List Nat
  perm : places.Perm (List.range n)

namespace Reordering

variable {n : Nat}

/-- The entries in the order of the places. -/
def apply (ρ : Reordering n) (xs : List α) : List α :=
  ρ.places.filterMap (xs[·]?)

theorem length_places (ρ : Reordering n) : ρ.places.length = n := by
  rw [ρ.perm.length_eq, List.length_range]

theorem lt_of_mem (ρ : Reordering n) {i : Nat} (h : i ∈ ρ.places) :
    i < n :=
  List.mem_range.mp (ρ.perm.mem_iff.mp h)

variable {ρ : Reordering n} {xs : List α} {ys : List β}

/-- Read through the places, a vector gives an entry for each. -/
theorem filterMap_eq_map {ps : List Nat} (h : ∀ i ∈ ps, i < xs.length) :
    (ps.filterMap (xs[·]?)).map some = ps.map (xs[·]?) := by
  induction ps with
  | nil => rfl
  | cons p ps ih =>
      have hp : p < xs.length := h p (List.mem_cons_self ..)
      have hget : xs[p]? = some xs[p] := List.getElem?_eq_getElem hp
      rw [List.filterMap_cons_some hget, List.map_cons, List.map_cons,
        ih fun i hi => h i (List.mem_cons_of_mem p hi), hget]

/-- Entry `j` is the entry at the `j`-th place. -/
theorem apply_getElem? (hx : xs.length = n) (j : Nat) :
    (ρ.apply xs)[j]? = ρ.places[j]?.bind (xs[·]?) := by
  have hmap : (ρ.places.filterMap (xs[·]?)).map some
      = ρ.places.map (xs[·]?) :=
    filterMap_eq_map fun i hi => by rw [hx]; exact ρ.lt_of_mem hi
  have hj := congrArg (·[j]?) hmap
  simp only [List.getElem?_map] at hj
  unfold apply
  cases hp : ρ.places[j]? with
  | none =>
      rw [hp] at hj
      simpa using hj
  | some p =>
      rw [hp] at hj
      cases hy : (ρ.places.filterMap (xs[·]?))[j]? with
      | none =>
          rw [hy] at hj
          cases hj
      | some y =>
          rw [hy] at hj
          exact Option.some.inj hj

@[simp] theorem apply_length (hx : xs.length = n) :
    (ρ.apply xs).length = n := by
  have hmap : (ρ.places.filterMap (xs[·]?)).map some
      = ρ.places.map (xs[·]?) :=
    filterMap_eq_map fun i hi => by rw [hx]; exact ρ.lt_of_mem hi
  have hlen := congrArg List.length hmap
  rw [List.length_map, List.length_map, ρ.length_places] at hlen
  exact hlen

@[simp] theorem apply_nil : ρ.apply ([] : List α) = [] := by
  unfold apply
  rw [List.filterMap_eq_nil_iff]
  intro i _
  rfl

/-- A vector that is not empty stays so. -/
theorem apply_isEmpty (hx : xs = [] ∨ xs.length = n) :
    (ρ.apply xs).isEmpty = xs.isEmpty := by
  rcases hx with rfl | hx
  · rw [apply_nil]
  · cases xs with
    | nil => rw [apply_nil]
    | cons x xs =>
        have hlen := apply_length (ρ := ρ) hx
        cases hy : ρ.apply (x :: xs) with
        | nil =>
            rw [hy, ← hx] at hlen
            cases hlen
        | cons y ys => rfl

/-- Two vectors that agree place by place. -/
theorem eq_apply {zs : List α} (hz : zs.length = n) (hx : xs.length = n)
    (h : ∀ (i j : Nat), ρ.places[j]? = some i → zs[j]? = xs[i]?) :
    zs = ρ.apply xs := by
  apply List.ext_getElem?
  intro j
  rw [apply_getElem? hx]
  cases hp : ρ.places[j]? with
  | none =>
      rw [List.getElem?_eq_none_iff, ρ.length_places] at hp
      rw [Option.bind_none, List.getElem?_eq_none_iff]
      omega
  | some i => exact h i j hp

/-- Every place stands somewhere. -/
theorem exists_place (ρ : Reordering n) {i : Nat} (h : i < n) :
    ∃ j : Nat, ρ.places[j]? = some i :=
  List.mem_iff_getElem?.mp
    (ρ.perm.mem_iff.mpr (List.mem_range.mpr h))

/-- The same entries in another order. -/
theorem apply_perm (hx : xs.length = n) : (ρ.apply xs).Perm xs := by
  have hself : (List.range n).filterMap (xs[·]?) = xs := by
    apply List.map_injective_iff.mpr (Option.some_injective α)
    rw [filterMap_eq_map fun i hi => by rw [hx]; exact List.mem_range.mp hi]
    apply List.ext_getElem?
    intro j
    rw [List.getElem?_map, List.getElem?_map]
    by_cases hj : j < n
    · rw [List.getElem?_range hj, Option.map_some,
        List.getElem?_eq_getElem (by omega)]
      rfl
    · rw [List.getElem?_eq_none (by rw [List.length_range]; omega),
        List.getElem?_eq_none (by omega)]
      rfl
  have hperm := ρ.perm.filterMap (xs[·]?)
  rwa [hself] at hperm

theorem apply_nodup (hx : xs.length = n) (h : xs.Nodup) :
    (ρ.apply xs).Nodup :=
  (apply_perm hx).nodup_iff.mpr h

theorem mem_apply (hx : xs.length = n) {x : α} :
    x ∈ ρ.apply xs ↔ x ∈ xs :=
  (apply_perm hx).mem_iff

-- ================================================ loops entry by entry

theorem apply_map (f : α → β) (xs : List α) :
    ρ.apply (xs.map f) = (ρ.apply xs).map f := by
  unfold apply
  rw [List.map_filterMap]
  congr 1
  funext i
  rw [List.getElem?_map]

theorem apply_zipWith (f : α → β → γ) (hx : xs.length = n)
    (hy : ys.length = n) :
    ρ.apply (List.zipWith f xs ys)
      = List.zipWith f (ρ.apply xs) (ρ.apply ys) := by
  symm
  apply eq_apply
  · rw [List.length_zipWith, apply_length hx, apply_length hy,
      Nat.min_self]
  · rw [List.length_zipWith, hx, hy, Nat.min_self]
  · intro i j hp
    rw [List.getElem?_zipWith, List.getElem?_zipWith, apply_getElem? hx,
      apply_getElem? hy, hp]
    rfl

theorem apply_replicate (a : α) :
    ρ.apply (List.replicate n a) = List.replicate n a := by
  symm
  apply eq_apply (by simp) (by simp)
  intro i j hp
  have hi : i < n := ρ.lt_of_mem (List.mem_of_getElem? hp)
  have hj : j < n := by
    rw [← ρ.length_places]
    exact (List.getElem?_eq_some_iff.mp hp).1
  rw [List.getElem?_replicate, List.getElem?_replicate, if_pos hi,
    if_pos hj]

-- ========================================================= named values

/-- A value is found under its name in any order of both. -/
theorem valueAt_apply [DecidableEq α] (hx : xs.length = n)
    (hy : ys.length = n) (hnd : xs.Nodup) (a : α) :
    valueAt (ρ.apply xs) (ρ.apply ys) a = valueAt xs ys a := by
  by_cases ha : a ∈ xs
  · obtain ⟨i, hi⟩ := List.mem_iff_getElem?.mp ha
    have hlt : i < n := by
      rw [← hx]
      exact (List.getElem?_eq_some_iff.mp hi).1
    obtain ⟨j, hj⟩ := ρ.exists_place hlt
    have hat : (ρ.apply xs)[j]? = some a := by
      rw [apply_getElem? hx, hj]
      exact hi
    rw [valueAt_of_nodup hnd hi,
      valueAt_of_nodup (apply_nodup hx hnd) hat, apply_getElem? hy, hj]
    rfl
  · rw [valueAt_eq_none ha, valueAt_eq_none fun h =>
      ha ((mem_apply hx).mp h)]

end Reordering

end RlDeploy.Lib
