/-
Scattering a vector along index pairs, and the last index of a name.

`scatter pairs data base` writes `data[s]` over `base[t]` for each pair
`(s, t)`, in order, and skips a pair whose source lies past the data. It
is the semantics of every "reorder by index list" loop.

- On targets without repetition each entry has one writer, so an entry
  is its writer's source (`scatter_hit`) or the base's (`scatter_miss`,
  and `scatter_short` for a source past the data).
- `lastKey l a` is the key a map holds for the value `a` after it was
  inverted entry by entry (`invert_getElem?`); over an ordered map it is
  the greatest key of `a` (`lastKey_greatest`).
- `lastIdx xs a` is the index a map holds for `a` after the loop
  `for i: map[xs[i]] = i`, in which a later write wins
  (`indexMap_getElem?`); without repetition it is the index of `a`.
- `insertAll_getElem?` and `insertEach_getElem?` say what a map holds
  after a loop of writes: for a key the last entry written, or the value
  made of the key. The entries of a map, written one by one, are the map
  again (`insertAll_toList`).
- `valueAt names data a` reads a vector under the names of its entries:
  what it holds does not depend on the order the names are listed in.
-/
import Mathlib.Tactic

namespace RlDeploy.Lib

variable {α β : Type}

-- =========================================================== scatter

/-- Write `data[s]` at `t` for one pair `(s, t)`; a source past the data
leaves the base. -/
def scatterStep (data : List α) (r : List α) (p : Nat × Nat) : List α :=
  match data[p.1]? with
  | some x => r.set p.2 x
  | none => r

/-- Write `data[s]` at `t` for every pair `(s, t)`, in order. -/
def scatter (pairs : List (Nat × Nat)) (data base : List α) : List α :=
  pairs.foldl (scatterStep data) base

@[simp] theorem scatterStep_length (data r : List α) (p : Nat × Nat) :
    (scatterStep data r p).length = r.length := by
  unfold scatterStep
  split
  · exact List.length_set ..
  · rfl

@[simp] theorem scatter_length (pairs : List (Nat × Nat))
    (data base : List α) :
    (scatter pairs data base).length = base.length := by
  unfold scatter
  induction pairs generalizing base with
  | nil => rfl
  | cons p ps ih => rw [List.foldl_cons, ih, scatterStep_length]

/-- A step leaves every entry but its target. -/
theorem scatterStep_ne {data r : List α} {p : Nat × Nat} {j : Nat}
    (h : p.2 ≠ j) : (scatterStep data r p)[j]? = r[j]? := by
  unfold scatterStep
  split
  · exact List.getElem?_set_ne h
  · rfl

/-- An entry that no pair targets keeps the base's value. -/
theorem scatter_miss {pairs : List (Nat × Nat)} {data base : List α}
    {j : Nat} (h : ∀ p ∈ pairs, p.2 ≠ j) :
    (scatter pairs data base)[j]? = base[j]? := by
  unfold scatter
  induction pairs generalizing base with
  | nil => rfl
  | cons p ps ih =>
      rw [List.foldl_cons, ih fun q hq => h q (List.mem_cons_of_mem p hq),
        scatterStep_ne (h p (List.mem_cons_self ..))]

/-- On targets without repetition, the entry a pair targets holds that
pair's source. -/
theorem scatter_hit {pairs : List (Nat × Nat)} {data base : List α}
    {s t : Nat} {x : α} (hnd : (pairs.map Prod.snd).Nodup)
    (hp : (s, t) ∈ pairs) (hx : data[s]? = some x)
    (ht : t < base.length) :
    (scatter pairs data base)[t]? = some x := by
  induction pairs generalizing base with
  | nil => cases hp
  | cons p ps ih =>
      rw [List.map_cons, List.nodup_cons] at hnd
      show (scatter ps data (scatterStep data base p))[t]? = some x
      rcases List.mem_cons.mp hp with rfl | hp'
      · -- the writer is the head, and no later pair has its target
        have hmiss : ∀ q ∈ ps, q.2 ≠ t := fun q hq heq =>
          hnd.1 (List.mem_map.mpr ⟨q, hq, heq⟩)
        rw [scatter_miss hmiss, scatterStep, hx]
        simp [ht]
      · exact ih hnd.2 hp' (by rw [scatterStep_length]; exact ht)

/-- A source past the data leaves the base at its target, when it is the
target's only writer. -/
theorem scatter_short {pairs : List (Nat × Nat)} {data base : List α}
    {s t : Nat} (hnd : (pairs.map Prod.snd).Nodup) (hp : (s, t) ∈ pairs)
    (hs : data[s]? = none) :
    (scatter pairs data base)[t]? = base[t]? := by
  induction pairs generalizing base with
  | nil => cases hp
  | cons p ps ih =>
      rw [List.map_cons, List.nodup_cons] at hnd
      show (scatter ps data (scatterStep data base p))[t]? = base[t]?
      rcases List.mem_cons.mp hp with rfl | hp'
      · have hmiss : ∀ q ∈ ps, q.2 ≠ t := fun q hq heq =>
          hnd.1 (List.mem_map.mpr ⟨q, hq, heq⟩)
        rw [scatter_miss hmiss, scatterStep, hs]
      · have hne : p.2 ≠ t := fun heq =>
          hnd.1 (heq ▸ List.mem_map.mpr ⟨(s, t), hp', rfl⟩)
        rw [ih hnd.2 hp', scatterStep_ne hne]

-- ======================================================== last index

/-- The last index of `a` in `xs`. -/
def lastIdx [DecidableEq α] (xs : List α) (a : α) : Option Nat :=
  xs.zipIdx.foldl (fun r p => if p.1 = a then some p.2 else r) none

/-- The map built by `for i: map[xs[i]] = i`. -/
def indexMap (cmp : α → α → Ordering) (xs : List α) :
    Std.TreeMap α Nat cmp :=
  xs.zipIdx.foldl (fun m p => m.insert p.1 p.2) ∅

theorem lastIdx_snoc [DecidableEq α] (xs : List α) (b a : α) :
    lastIdx (xs ++ [b]) a
      = if b = a then some xs.length else lastIdx xs a := by
  unfold lastIdx
  rw [List.zipIdx_append, List.foldl_append]
  simp

theorem lastIdx_nil [DecidableEq α] (a : α) :
    lastIdx ([] : List α) a = none := rfl

/-- The index map holds the last index of every name. -/
theorem indexMap_getElem? [DecidableEq α] {cmp : α → α → Ordering}
    [Std.TransCmp cmp] [Std.LawfulEqCmp cmp] (xs : List α) (a : α) :
    (indexMap cmp xs)[a]? = lastIdx xs a := by
  induction xs using List.reverseRecOn with
  | nil => simp [indexMap, lastIdx]
  | append_singleton xs b ih =>
      rw [lastIdx_snoc, ← ih]
      unfold indexMap
      rw [List.zipIdx_append, List.foldl_append]
      simp only [List.zipIdx_singleton, Nat.zero_add, List.foldl_cons,
        List.foldl_nil]
      rw [Std.TreeMap.getElem?_insert]
      simp only [Std.LawfulEqCmp.compare_eq_iff_eq]

/-- `lastIdx` finds an occurrence, and there is none after it. -/
theorem lastIdx_eq_some_iff [DecidableEq α] {xs : List α} {a : α}
    {i : Nat} :
    lastIdx xs a = some i
      ↔ xs[i]? = some a ∧ ∀ j, i < j → xs[j]? ≠ some a := by
  induction xs using List.reverseRecOn with
  | nil => simp [lastIdx_nil]
  | append_singleton xs b ih =>
      rw [lastIdx_snoc]
      by_cases hb : b = a
      · subst hb
        rw [if_pos rfl]
        constructor
        · intro h
          obtain rfl : xs.length = i := by simpa using h
          refine ⟨by simp, fun j hj => ?_⟩
          rw [List.getElem?_eq_none (by simp; omega)]
          simp
        · rintro ⟨hi, hlast⟩
          -- an earlier occurrence is not last: `b` itself comes after it
          have hle : xs.length ≤ i := by
            by_contra hlt
            exact hlast xs.length (by omega) (by simp)
          have hlt : i < (xs ++ [b]).length :=
            (List.getElem?_eq_some_iff.mp hi).1
          rw [List.length_append, List.length_singleton] at hlt
          congr 1
          omega
      · rw [if_neg hb, ih]
        have key : ∀ j : Nat, (xs ++ [b])[j]? = some a ↔ xs[j]? = some a := by
          intro j
          rcases Nat.lt_or_ge j xs.length with hj | hj
          · rw [List.getElem?_append_left hj]
          · rw [List.getElem?_append_right hj, List.getElem?_eq_none hj]
            cases hk : j - xs.length with
            | zero => simp [hb]
            | succ k => simp
        simp only [key, Ne]

theorem lastIdx_eq_none_iff [DecidableEq α] {xs : List α} {a : α} :
    lastIdx xs a = none ↔ a ∉ xs := by
  induction xs using List.reverseRecOn with
  | nil => simp [lastIdx_nil]
  | append_singleton xs b ih =>
      rw [lastIdx_snoc, List.mem_append, List.mem_singleton]
      by_cases hb : b = a
      · simp [hb]
      · rw [if_neg hb, ih]
        simp [Ne.symm hb]

theorem lastIdx_lt [DecidableEq α] {xs : List α} {a : α} {i : Nat}
    (h : lastIdx xs a = some i) : i < xs.length :=
  (List.getElem?_eq_some_iff.mp (lastIdx_eq_some_iff.mp h).1).1

/-- Without repetition the last index is the index. -/
theorem lastIdx_of_nodup [DecidableEq α] {xs : List α} {a : α} {i : Nat}
    (hnd : xs.Nodup) (h : xs[i]? = some a) : lastIdx xs a = some i := by
  refine lastIdx_eq_some_iff.mpr ⟨h, fun j hij hj => ?_⟩
  obtain ⟨hi, hia⟩ := List.getElem?_eq_some_iff.mp h
  obtain ⟨hj', hja⟩ := List.getElem?_eq_some_iff.mp hj
  have := (List.Nodup.getElem_inj_iff hnd).mp (hia.trans hja.symm)
  omega

-- ================================================= vectors under names

/-- A vector whose entries are listed under names, read at a name: none
when the name is not listed, or listed past the vector's end. -/
def valueAt [DecidableEq α] (names : List α) (data : List β) (a : α) :
    Option β :=
  (lastIdx names a).bind fun i => data[i]?

theorem valueAt_of_nodup [DecidableEq α] {names : List α} {a : α}
    {i : Nat} (hnd : names.Nodup) (h : names[i]? = some a)
    (data : List β) : valueAt names data a = data[i]? := by
  unfold valueAt
  rw [lastIdx_of_nodup hnd h]
  rfl

theorem valueAt_eq_none [DecidableEq α] {names : List α} {a : α}
    (h : a ∉ names) (data : List β) : valueAt names data a = none := by
  unfold valueAt
  rw [lastIdx_eq_none_iff.mpr h]
  rfl

-- ============================================================ last key

/-- The last key of an entry list that holds the value `a`. -/
def lastKey {κ : Type} [DecidableEq α] (l : List (κ × α)) (a : α) :
    Option κ :=
  l.foldl (fun r p => if p.2 = a then some p.1 else r) none

theorem lastKey_snoc {κ : Type} [DecidableEq α] (l : List (κ × α))
    (p : κ × α) (a : α) :
    lastKey (l ++ [p]) a = if p.2 = a then some p.1 else lastKey l a := by
  unfold lastKey
  rw [List.foldl_append]
  rfl

/-- In an ordered entry list, the last key of a value is its greatest. -/
theorem lastKey_greatest {κ : Type} [DecidableEq α] {R : κ → κ → Prop}
    {l : List (κ × α)} {a : α} {k : κ}
    (hl : l.Pairwise fun p q => R p.1 q.1) (h : lastKey l a = some k) :
    (k, a) ∈ l ∧ ∀ k', (k', a) ∈ l → k' = k ∨ R k' k := by
  induction l using List.reverseRecOn with
  | nil => cases h
  | append_singleton l p ih =>
      rw [List.pairwise_append] at hl
      obtain ⟨hl, -, hlast⟩ := hl
      rw [lastKey_snoc] at h
      by_cases hp : p.2 = a
      · rw [if_pos hp] at h
        cases h
        have hpair : (p.1, a) = p := by rw [← hp]
        refine ⟨by rw [hpair]; simp, fun k' hk' => ?_⟩
        rcases List.mem_append.mp hk' with hin | hin
        · exact Or.inr (hlast _ hin p (by simp))
        · exact Or.inl (congrArg Prod.fst (List.mem_singleton.mp hin))
      · rw [if_neg hp] at h
        obtain ⟨hmem, hgreat⟩ := ih hl h
        refine ⟨List.mem_append_left _ hmem, fun k' hk' => ?_⟩
        rcases List.mem_append.mp hk' with hin | hin
        · exact hgreat k' hin
        · exact absurd (congrArg Prod.snd (List.mem_singleton.mp hin)).symm
            hp

theorem lastKey_eq_none_iff {κ : Type} [DecidableEq α]
    {l : List (κ × α)} {a : α} :
    lastKey l a = none ↔ ∀ k, (k, a) ∉ l := by
  induction l using List.reverseRecOn with
  | nil => simp [lastKey]
  | append_singleton l p ih =>
      rw [lastKey_snoc]
      by_cases hp : p.2 = a
      · rw [if_pos hp]
        constructor
        · intro h
          cases h
        · intro h
          exact absurd (List.mem_append_right _ (by rw [← hp]; simp))
            (h p.1)
      · rw [if_neg hp, ih]
        constructor
        · intro h k hk
          rcases List.mem_append.mp hk with hin | hin
          · exact h k hin
          · exact hp (congrArg Prod.snd (List.mem_singleton.mp hin)).symm
        · intro h k hk
          exact h k (List.mem_append_left _ hk)

/-- The map built by `for (k, v): map[v] = k` over one that has entries:
the last key with the value, else the old entry. -/
theorem invert_getElem? {κ : Type} [DecidableEq α]
    {cmp : α → α → Ordering} [Std.TransCmp cmp] [Std.LawfulEqCmp cmp]
    (l : List (κ × α)) (m : Std.TreeMap α κ cmp) (a : α) :
    (l.foldl (fun m p => m.insert p.2 p.1) m)[a]?
      = (lastKey l a).or m[a]? := by
  induction l using List.reverseRecOn with
  | nil => rfl
  | append_singleton l p ih =>
      rw [List.foldl_append, lastKey_snoc]
      simp only [List.foldl_cons, List.foldl_nil]
      rw [Std.TreeMap.getElem?_insert, ih]
      simp only [Std.LawfulEqCmp.compare_eq_iff_eq]
      split <;> rfl

/-- The map after writing a list of entries over it: the last one of a
key counts. -/
theorem insertAll_getElem? {κ : Type} [DecidableEq κ]
    {cmp : κ → κ → Ordering} [Std.TransCmp cmp] [Std.LawfulEqCmp cmp]
    (l : List (κ × α)) (m : Std.TreeMap κ α cmp) (k : κ) :
    (l.foldl (fun m p => m.insert p.1 p.2) m)[k]?
      = (l.reverse.lookup k).or m[k]? := by
  induction l using List.reverseRecOn with
  | nil => rfl
  | append_singleton l p ih =>
      rw [List.foldl_append, List.reverse_concat]
      simp only [List.foldl_cons, List.foldl_nil]
      rw [Std.TreeMap.getElem?_insert, ih, List.lookup_cons]
      simp only [Std.LawfulEqCmp.compare_eq_iff_eq]
      by_cases h : p.1 = k
      · subst h
        simp
      · have hk : (k == p.1) = false := by
          simpa using fun hkp => h hkp.symm
        rw [if_neg h, hk]

/-- The map after writing a value made of the key under each key of a
list of entries. -/
theorem insertEach_getElem? {κ : Type} [DecidableEq κ]
    {cmp : κ → κ → Ordering} [Std.TransCmp cmp] [Std.LawfulEqCmp cmp]
    (l : List (κ × β)) (f : κ → α) (m : Std.TreeMap κ α cmp) (k : κ) :
    (l.foldl (fun m p => m.insert p.1 (f p.1)) m)[k]?
      = if k ∈ l.map Prod.fst then some (f k) else m[k]? := by
  induction l using List.reverseRecOn with
  | nil => simp
  | append_singleton l p ih =>
      rw [List.foldl_append, List.map_append, List.map_singleton]
      simp only [List.foldl_cons, List.foldl_nil]
      rw [Std.TreeMap.getElem?_insert, ih]
      simp only [Std.LawfulEqCmp.compare_eq_iff_eq, List.mem_append,
        List.mem_singleton]
      by_cases h : p.1 = k
      · subst h
        simp
      · rw [if_neg h]
        simp only [or_iff_left (Ne.symm h)]

/-- Under distinct keys every entry is found. -/
theorem lookup_eq_some_iff_mem {κ : Type} [DecidableEq κ]
    {l : List (κ × α)} (h : (l.map Prod.fst).Nodup) (k : κ) (v : α) :
    l.lookup k = some v ↔ (k, v) ∈ l := by
  induction l with
  | nil => simp
  | cons p l ih =>
      rw [List.map_cons, List.nodup_cons] at h
      rw [List.lookup_cons, List.mem_cons]
      by_cases hk : k = p.1
      · have hnot : (k, v) ∉ l := fun hm =>
          h.1 (hk ▸ List.mem_map_of_mem (f := Prod.fst) hm)
        have hbeq : (k == p.1) = true := by simpa using hk
        rw [hbeq]
        constructor
        · intro hv
          left
          rw [hk, ← Option.some.inj hv]
        · rintro (rfl | hm)
          · rfl
          · exact absurd hm hnot
      · have hbeq : (k == p.1) = false := by simpa using hk
        rw [hbeq]
        constructor
        · intro hv
          exact Or.inr ((ih h.2).mp hv)
        · rintro (rfl | hm)
          · exact absurd rfl hk
          · exact (ih h.2).mpr hm

/-- Writing the entries of a map into an empty one gives them back. -/
theorem insertAll_toList {κ : Type} [DecidableEq κ]
    {cmp : κ → κ → Ordering} [Std.TransCmp cmp] [Std.LawfulEqCmp cmp]
    (m : Std.TreeMap κ α cmp) :
    (m.toList.foldl (fun m p => m.insert p.1 p.2)
      (∅ : Std.TreeMap κ α cmp)).toList = m.toList := by
  have hnodup : (m.toList.reverse.map Prod.fst).Nodup := by
    rw [List.map_reverse, List.nodup_reverse,
      Std.TreeMap.map_fst_toList_eq_keys]
    exact Std.TreeMap.nodup_keys
  apply Std.TreeMap.Equiv.toList_eq
  apply Std.TreeMap.Equiv.of_forall_constGet?_eq
  intro k
  apply Option.ext
  intro v
  rw [insertAll_getElem?, Std.TreeMap.getElem?_emptyc, Option.or_none,
    lookup_eq_some_iff_mem hnodup, List.mem_reverse,
    Std.TreeMap.mem_toList_iff_getElem?_eq_some]

end RlDeploy.Lib
