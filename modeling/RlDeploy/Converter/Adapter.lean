/-
`class DoFAdapter` (`data_converter.hpp`, `data_converter.cpp`): index
maps between two joint orders, built by name and applied to a vector.

The class invariant is carried by the structure: the two index lists
have one length, source indices lie below `_src_len` and target indices
below `_tar_len`. With it, `fit` without a template never writes past
its result (`fit_eq`), whatever the data's length, and is the `scatter`
of the index pairs.

For the name-only matching the converter uses (an empty name map), the
entry of a target name is the data at the source index of that name
(`fitted_match`) and the filler `0` when the source does not have it
(`fitted_unmatched`).
-/
import RlDeploy.Basic
import RlDeploy.Lib.Scatter

namespace RlDeploy

open Lib

/-- `std::map<std::string, β>`. -/
abbrev StdMap (β : Type) := Std.TreeMap String β compare

structure DoFAdapter where
  srcIndices : List Nat
  tarIndices : List Nat
  srcLen : Nat
  tarLen : Nat
  length_eq : srcIndices.length = tarIndices.length
  src_lt : ∀ s ∈ srcIndices, s < srcLen
  tar_lt : ∀ t ∈ tarIndices, t < tarLen

namespace DoFAdapter

variable {F D : Type} [Scalar F D]

/-- The default-constructed adapter. -/
def init : DoFAdapter where
  srcIndices := []
  tarIndices := []
  srcLen := 0
  tarLen := 0
  length_eq := rfl
  src_lt := by simp
  tar_lt := by simp

/-- The target index `build` finds for one source name: by the name map
first, else by the same name. -/
def matchName (tarIndex : StdMap Nat) (nameMap : StdMap String)
    (srcName : String) : Option Nat :=
  match nameMap[srcName]? with
  | some tarName =>
      match tarIndex[tarName]? with
      | some ti => some ti
      | none => tarIndex[srcName]?
  | none => tarIndex[srcName]?

/-- The index pairs `build` pushes, in source order. -/
def namePairs (srcNames tarNames : List String) (nameMap : StdMap String) :
    List (Nat × Nat) :=
  let tarIndex : StdMap Nat := indexMap compare tarNames
  srcNames.zipIdx.filterMap fun (srcName, si) =>
    (matchName tarIndex nameMap srcName).map fun ti => (si, ti)

/-- A matched index is in range of the target names. -/
theorem matchName_lt {tarNames : List String} {nameMap : StdMap String}
    {srcName : String} {ti : Nat}
    (h : matchName (indexMap compare tarNames) nameMap srcName
      = some ti) : ti < tarNames.length := by
  unfold matchName at h
  simp only [indexMap_getElem?] at h
  split at h
  next tarName _ =>
    split at h
    next ti' hti =>
      cases h
      exact lastIdx_lt hti
    next => exact lastIdx_lt h
  next => exact lastIdx_lt h

/-- What a pushed pair is: a source position and the target found for
its name. -/
theorem mem_namePairs {srcNames tarNames : List String}
    {nameMap : StdMap String} {s t : Nat} :
    (s, t) ∈ namePairs srcNames tarNames nameMap
      ↔ ∃ n, srcNames[s]? = some n
        ∧ matchName (indexMap compare tarNames) nameMap n = some t := by
  unfold namePairs
  simp only [List.mem_filterMap, Option.map_eq_some_iff, Prod.mk.injEq,
    Prod.exists]
  constructor
  · rintro ⟨n, i, hmem, ti, hti, rfl, rfl⟩
    exact ⟨n, List.mem_zipIdx_iff_getElem?.mp hmem, hti⟩
  · rintro ⟨n, hn, ht⟩
    exact ⟨n, s, List.mem_zipIdx_iff_getElem?.mpr hn, t, ht, rfl, rfl⟩

def build (srcNames tarNames : List String) (nameMap : StdMap String) :
    DoFAdapter where
  srcIndices := (namePairs srcNames tarNames nameMap).map Prod.fst
  tarIndices := (namePairs srcNames tarNames nameMap).map Prod.snd
  srcLen := srcNames.length
  tarLen := tarNames.length
  length_eq := by rw [List.length_map, List.length_map]
  src_lt := by
    intro s hs
    obtain ⟨⟨s', t⟩, hp, rfl⟩ := List.mem_map.mp hs
    obtain ⟨n, hn, -⟩ := mem_namePairs.mp hp
    exact (List.getElem?_eq_some_iff.mp hn).1
  tar_lt := by
    intro t ht
    obtain ⟨⟨s, t'⟩, hp, rfl⟩ := List.mem_map.mp ht
    obtain ⟨n, -, hm⟩ := mem_namePairs.mp hp
    exact matchName_lt hm

/-- One iteration of `fit`: `result[ti] = data[si]` if `si` is inside
the data. -/
def fitStep (data result : List F) (p : Nat × Nat) :
    Except Fault (List F) :=
  match data[p.1]? with
  | some x =>
      if p.2 < result.length then .ok (result.set p.2 x)
      else .error (.index .fitResult)
  | none => .ok result

def fit (a : DoFAdapter) (data : List F) (templateVals : List F := []) :
    Except Fault (List F) :=
  let result :=
    if templateVals.isEmpty then List.replicate a.tarLen 0
    else templateVals
  (a.srcIndices.zip a.tarIndices).foldlM (fitStep data) result

-- ==================================================== fit as a scatter

/-- `fit` without a template, as a total function. -/
def fitted (a : DoFAdapter) (data : List F) : List F :=
  scatter (a.srcIndices.zip a.tarIndices) data (List.replicate a.tarLen 0)

@[simp] theorem fitted_length (a : DoFAdapter) (data : List F) :
    (a.fitted data).length = a.tarLen := by
  unfold fitted
  rw [scatter_length, List.length_replicate]

/-- While every target is in range, the loop is the scatter. -/
theorem foldlM_fitStep (data : List F) :
    ∀ {pairs : List (Nat × Nat)} {base : List F},
      (∀ p ∈ pairs, p.2 < base.length) →
      pairs.foldlM (fitStep data) base = .ok (scatter pairs data base) := by
  intro pairs
  induction pairs with
  | nil => intro base _; rfl
  | cons p ps ih =>
      intro base h
      have hstep : fitStep data base p = .ok (scatterStep data base p) := by
        unfold fitStep scatterStep
        cases data[p.1]? with
        | none => rfl
        | some x => exact if_pos (h p (List.mem_cons_self ..))
      rw [List.foldlM_cons, hstep]
      show ps.foldlM (fitStep data) (scatterStep data base p) = _
      exact ih fun q hq => by
        rw [scatterStep_length]
        exact h q (List.mem_cons_of_mem p hq)

/-- Without a template `fit` always returns. -/
theorem fit_eq (a : DoFAdapter) (data : List F) :
    a.fit data = .ok (a.fitted data) := by
  unfold fit fitted
  rw [if_pos (by rfl)]
  refine foldlM_fitStep data fun p hp => ?_
  rw [List.length_replicate]
  exact a.tar_lt p.2 (List.of_mem_zip hp).2

-- ============================================== the name-only matching

section NameOnly

variable {srcNames tarNames : List String}

theorem matchName_empty (tarNames : List String) (n : String) :
    matchName (indexMap compare tarNames) ∅ n = lastIdx tarNames n := by
  unfold matchName
  rw [indexMap_getElem?]
  rfl

theorem build_pairs (srcNames tarNames : List String)
    (nameMap : StdMap String) :
    (build srcNames tarNames nameMap).srcIndices.zip
        (build srcNames tarNames nameMap).tarIndices
      = namePairs srcNames tarNames nameMap :=
  (List.zip_of_prod rfl rfl).symm

@[simp] theorem build_tarLen (srcNames tarNames : List String)
    (nameMap : StdMap String) :
    (build srcNames tarNames nameMap).tarLen = tarNames.length := rfl

/-- Distinct source names have distinct targets. -/
theorem namePairs_targets_nodup (hsrc : srcNames.Nodup) :
    ((namePairs srcNames tarNames ∅).map Prod.snd).Nodup := by
  have hzip : srcNames.zipIdx.Nodup :=
    List.Nodup.of_map Prod.fst (by rwa [List.zipIdx_map_fst])
  have hpairs : (namePairs srcNames tarNames ∅).Nodup := by
    apply hzip.filterMap
    rintro ⟨n, i⟩ ⟨m, j⟩ ⟨s, t⟩ hn hm
    simp only [Option.mem_def, Option.map_eq_some_iff, Prod.mk.injEq,
      matchName_empty] at hn hm
    obtain ⟨t₁, ht₁, rfl, rfl⟩ := hn
    obtain ⟨t₂, ht₂, rfl, rfl⟩ := hm
    have h₁ := (lastIdx_eq_some_iff.mp ht₁).1
    have h₂ := (lastIdx_eq_some_iff.mp ht₂).1
    rw [h₁] at h₂
    cases h₂
    rfl
  apply hpairs.map_on
  rintro ⟨s₁, t₁⟩ h₁ ⟨s₂, t₂⟩ h₂ (rfl : t₁ = t₂)
  obtain ⟨n₁, hn₁, ht₁⟩ := mem_namePairs.mp h₁
  obtain ⟨n₂, hn₂, ht₂⟩ := mem_namePairs.mp h₂
  rw [matchName_empty] at ht₁ ht₂
  -- both names stand at the one target, so they are one name
  have hname : n₁ = n₂ := by
    have := (lastIdx_eq_some_iff.mp ht₁).1.symm.trans
      (lastIdx_eq_some_iff.mp ht₂).1
    simpa using this
  subst hname
  have h := (lastIdx_of_nodup hsrc hn₁).symm.trans
    (lastIdx_of_nodup hsrc hn₂)
  simpa using h

/-- A target's entry is the source's value under its name, else the
base's. -/
theorem scatter_named (hsrc : srcNames.Nodup) (htar : tarNames.Nodup)
    {data base : List F} (hbase : base.length = tarNames.length)
    {n : String} {j : Nat} (hj : tarNames[j]? = some n) :
    (scatter (namePairs srcNames tarNames ∅) data base)[j]?
      = (valueAt srcNames data n).or base[j]? := by
  by_cases hn : n ∈ srcNames
  · obtain ⟨i, hi⟩ := List.mem_iff_getElem?.mp hn
    have hpair : (i, j) ∈ namePairs srcNames tarNames ∅ :=
      mem_namePairs.mpr ⟨n, hi, by
        rw [matchName_empty]
        exact lastIdx_of_nodup htar hj⟩
    have hlt : j < base.length := by
      rw [hbase]
      exact (List.getElem?_eq_some_iff.mp hj).1
    rw [valueAt_of_nodup hsrc hi]
    cases hx : data[i]? with
    | some x =>
        exact scatter_hit (namePairs_targets_nodup hsrc) hpair hx hlt
    | none =>
        exact scatter_short (namePairs_targets_nodup hsrc) hpair hx
  · rw [valueAt_eq_none hn, Option.none_or]
    apply scatter_miss
    rintro ⟨s, t⟩ hp (rfl : t = j)
    obtain ⟨m, hm, ht⟩ := mem_namePairs.mp hp
    rw [matchName_empty] at ht
    have : m = n := by
      simpa using (lastIdx_eq_some_iff.mp ht).1.symm.trans hj
    exact hn (this ▸ List.mem_of_getElem? hm)

/-- Without a template: the source's value under the name, else `0`. -/
theorem fitted_named (hsrc : srcNames.Nodup) (htar : tarNames.Nodup)
    {data : List F} {n : String} {j : Nat} (hj : tarNames[j]? = some n) :
    ((build srcNames tarNames ∅).fitted data)[j]?
      = some ((valueAt srcNames data n).getD 0) := by
  have hlt := (List.getElem?_eq_some_iff.mp hj).1
  unfold fitted
  rw [build_pairs, scatter_named hsrc htar (by simp) hj, build_tarLen,
    List.getElem?_replicate, if_pos hlt]
  cases valueAt srcNames data n <;> rfl

/-- A target name the source has: its entry is the source's. -/
theorem fitted_match (hsrc : srcNames.Nodup) (htar : tarNames.Nodup)
    {n : String} {i j : Nat} {x : F} {data : List F}
    (hi : srcNames[i]? = some n) (hj : tarNames[j]? = some n)
    (hx : data[i]? = some x) :
    ((build srcNames tarNames ∅).fitted data)[j]? = some x := by
  rw [fitted_named hsrc htar hj, valueAt_of_nodup hsrc hi, hx]
  rfl

/-- A target name the source does not have: its entry is the filler. -/
theorem fitted_unmatched (hsrc : srcNames.Nodup) (htar : tarNames.Nodup)
    {n : String} {j : Nat} {data : List F}
    (hj : tarNames[j]? = some n) (hn : n ∉ srcNames) :
    ((build srcNames tarNames ∅).fitted data)[j]? = some 0 := by
  rw [fitted_named hsrc htar hj, valueAt_eq_none hn]
  rfl

end NameOnly

end DoFAdapter

end RlDeploy
