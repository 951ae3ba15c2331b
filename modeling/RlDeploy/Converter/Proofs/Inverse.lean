/-
The two joint-order adapters against each other: from the robot's order
to the model's and back.

# Vectors under names

What an adapter does is best said without indices. A vector whose
entries are listed under names is a partial function from names to
values (`valueAt`). `fit` hands that function over to another list of
names (`fit_named`): at each target name the result holds the source's
value there, and the filler where the source has none, be it that it
does not list the name or that the data ends before.

So going there and back restricts the vector to the names that both
lists have and puts the filler at the others (`roundTrip_named`). It
changes nothing more the second time, and nothing at all if and only if
the other list has every name (`roundTrip_id_iff`).
-/
import RlDeploy.Converter.Adapter

namespace RlDeploy

open Lib

variable {F D : Type} [Scalar F D]

namespace DoFAdapter

variable {A B : List String}

/-- `y` is `x`, listed under the names `A`, in the order `B`: what the
lists share is `x`'s as far as it reaches, the rest is the template's,
or `0` without one. -/
structure FitsTo (A B : List String) (x template y : List F) : Prop where
  length : y.length = B.length
  shared : ∀ (i j : Nat) (n : String), A[i]? = some n → B[j]? = some n →
    y[j]? = some (x[i]?.getD (template.getD j 0))
  foreign : ∀ (j : Nat) (n : String), B[j]? = some n → n ∉ A →
    y[j]? = some (template.getD j 0)

/-- From the order `A` to the order `B` and back. -/
def roundTrip (A B : List String) (x : List F) : Except Fault (List F) := do
  let y ← (build A B ∅).fit x
  (build B A ∅).fit y

/-- `fit` always returns, with the source's value under each target's
name, else the filler. -/
theorem fit_named (hA : A.Nodup) (hB : B.Nodup) (x : List F)
    {template : List F}
    (ht : template = [] ∨ template.length = B.length) :
    ∃ y, (build A B ∅).fit x template = .ok y ∧ y.length = B.length
      ∧ ∀ (j : Nat) (n : String), B[j]? = some n →
        y[j]? = some ((valueAt A x n).getD (template.getD j 0)) := by
  -- the vector the loop starts from, and its entries
  obtain ⟨base, hbase, hlen, hentry⟩ : ∃ base : List F,
      (if template.isEmpty then List.replicate B.length 0 else template)
        = base
      ∧ base.length = B.length
      ∧ ∀ j, j < B.length → base[j]? = some (template.getD j 0) := by
    refine ⟨_, rfl, ?_, ?_⟩
    · by_cases he : template = []
      · subst he
        exact List.length_replicate
      · rw [if_neg (by simpa using he)]
        exact ht.resolve_left he
    · intro j hj
      by_cases he : template = []
      · subst he
        show (List.replicate B.length (0 : F))[j]? = _
        rw [List.getElem?_replicate, if_pos hj]
        rfl
      · have hj' : j < template.length := by
          rwa [ht.resolve_left he]
        rw [if_neg (by simpa using he), List.getElem?_eq_getElem hj',
          List.getD_eq_getElem?_getD, List.getElem?_eq_getElem hj']
        rfl
  have hfit : (build A B ∅).fit x template
      = .ok (scatter (namePairs A B ∅) x base) := by
    unfold fit
    rw [build_tarLen, hbase, build_pairs]
    apply foldlM_fitStep x
    rintro ⟨s, t⟩ hp
    rw [hlen]
    obtain ⟨n, -, hm⟩ := mem_namePairs.mp hp
    exact matchName_lt hm
  refine ⟨_, hfit, by rw [scatter_length, hlen], fun j n hj => ?_⟩
  have hlt := (List.getElem?_eq_some_iff.mp hj).1
  rw [scatter_named hA hB hlen hj, hentry j hlt]
  cases valueAt A x n <;> rfl

/-- `fit` reorders by name. -/
theorem fit_fitsTo (hA : A.Nodup) (hB : B.Nodup) (x : List F)
    {template : List F}
    (ht : template = [] ∨ template.length = B.length) :
    ∃ y, (build A B ∅).fit x template = .ok y
      ∧ FitsTo A B x template y := by
  obtain ⟨y, hy, hlen, hval⟩ := fit_named hA hB x ht
  refine ⟨y, hy, hlen, fun i j n hi hj => ?_, fun j n hj hn => ?_⟩
  · rw [hval j n hj, valueAt_of_nodup hA hi]
  · rw [hval j n hj, valueAt_eq_none hn]
    rfl

/-- There and back, a vector keeps its entries under the names that both
lists have. -/
theorem roundTrip_named (hA : A.Nodup) (hB : B.Nodup) (x : List F) :
    ∃ z, roundTrip A B x = .ok z ∧ z.length = A.length
      ∧ ∀ (i : Nat) (n : String), A[i]? = some n →
        z[i]? = some (if n ∈ B then x[i]?.getD 0 else 0) := by
  obtain ⟨y, hy, hylen, hyval⟩ := fit_named hA hB x (Or.inl rfl)
  obtain ⟨z, hz, hzlen, hzval⟩ := fit_named hB hA y (Or.inl rfl)
  refine ⟨z, ?_, hzlen, fun i n hi => ?_⟩
  · unfold roundTrip
    rw [hy]
    exact hz
  rw [hzval i n hi]
  by_cases hn : n ∈ B
  · obtain ⟨j, hj⟩ := List.mem_iff_getElem?.mp hn
    rw [if_pos hn, valueAt_of_nodup hB hj, hyval j n hj,
      valueAt_of_nodup hA hi]
    rfl
  · rw [if_neg hn, valueAt_eq_none hn]
    rfl

/-- Two vectors of one length with equal entries at every listed name
are equal. -/
theorem ext_named {x y : List F} (hx : x.length = A.length)
    (hy : y.length = A.length)
    (h : ∀ (i : Nat) (n : String), A[i]? = some n → x[i]? = y[i]?) :
    x = y := by
  apply List.ext_getElem?
  intro i
  by_cases hi : i < A.length
  · exact h i A[i] (List.getElem?_eq_getElem hi)
  · rw [List.getElem?_eq_none (by omega), List.getElem?_eq_none (by omega)]

/-- The second time there and back changes nothing. -/
theorem roundTrip_idem (hA : A.Nodup) (hB : B.Nodup) {x z : List F}
    (h : roundTrip A B x = .ok z) : roundTrip A B z = .ok z := by
  obtain ⟨z₁, h₁, hlen₁, hval₁⟩ := roundTrip_named hA hB x
  obtain rfl : z₁ = z := by
    rw [h₁] at h
    injection h
  obtain ⟨z₂, h₂, hlen₂, hval₂⟩ := roundTrip_named hA hB z₁
  have heq : z₂ = z₁ := by
    apply ext_named hlen₂ hlen₁
    intro i n hi
    rw [hval₂ i n hi, hval₁ i n hi]
    by_cases hn : n ∈ B
    · simp [hn]
    · simp [hn]
  rw [h₂, heq]

/-- There and back changes no vector if and only if the other list has
all names. -/
theorem roundTrip_id_iff [Nontrivial F] (hA : A.Nodup) (hB : B.Nodup) :
    (∀ x : List F, x.length = A.length → roundTrip A B x = .ok x)
      ↔ A ⊆ B := by
  constructor
  · intro h n hn
    -- a vector without a zero entry keeps none of those outside `B`
    obtain ⟨a, ha⟩ := exists_ne (0 : F)
    obtain ⟨i, hi⟩ := List.mem_iff_getElem?.mp hn
    have hlt := (List.getElem?_eq_some_iff.mp hi).1
    obtain ⟨z, hz, -, hval⟩ :=
      roundTrip_named hA hB (List.replicate A.length a)
    rw [h _ List.length_replicate] at hz
    injection hz with hz
    have hentry := hval i n hi
    rw [← hz, List.getElem?_replicate, if_pos hlt] at hentry
    by_contra hnB
    rw [if_neg hnB] at hentry
    injection hentry with hentry
    exact ha hentry
  · intro hsub x hx
    obtain ⟨z, hz, hlen, hval⟩ := roundTrip_named hA hB x
    have heq : z = x := by
      apply ext_named hlen hx
      intro i n hi
      have hlt : i < x.length := by
        rw [hx]
        exact (List.getElem?_eq_some_iff.mp hi).1
      rw [hval i n hi, if_pos (hsub (List.mem_of_getElem? hi)),
        List.getElem?_eq_getElem hlt]
      rfl
    rw [hz, heq]

/-- The adapters between two name lists are inverse to each other on
the names both have. -/
theorem adapters_inverse [Nontrivial F] (hA : A.Nodup) (hB : B.Nodup) :
    (∀ x template : List F,
      template = [] ∨ template.length = B.length →
      ∃ y, (build A B ∅).fit x template = .ok y
        ∧ FitsTo A B x template y)
    ∧ (∀ x : List F, ∃ y z, (build A B ∅).fit x = .ok y
        ∧ (build B A ∅).fit y = .ok z ∧ z.length = A.length
        ∧ (∀ (i : Nat) (n : String), A[i]? = some n →
          z[i]? = some (if n ∈ B then x[i]?.getD 0 else 0))
        ∧ roundTrip A B z = .ok z)
    ∧ ((∀ x : List F, x.length = A.length → roundTrip A B x = .ok x)
      ↔ A ⊆ B) := by
  refine ⟨fun x template ht => fit_fitsTo hA hB x ht, fun x => ?_,
    roundTrip_id_iff hA hB⟩
  obtain ⟨z, hz, hlen, hval⟩ := roundTrip_named hA hB x
  obtain ⟨y, hy, hzy⟩ : ∃ y, (build A B ∅).fit x = .ok y
      ∧ (build B A ∅).fit y = .ok z := by
    unfold roundTrip at hz
    cases hfit : (build A B ∅).fit x with
    | error e => rw [hfit] at hz; cases hz
    | ok y => rw [hfit] at hz; exact ⟨y, rfl, hz⟩
  exact ⟨y, z, hy, hzy, hlen, hval, roundTrip_idem hA hB hz⟩

/-- Two lists that share `knee` alone, and a template. -/
theorem adapters_inverse_knee :
    (∃ y, (build ["hip", "knee"] ["knee", "waist"] ∅).fit [3, 4] [5, 6]
        = .ok y
      ∧ FitsTo (F := ℚ) ["hip", "knee"] ["knee", "waist"] [3, 4] [5, 6] y)
    ∧ ((∀ x : List ℚ, x.length = 2 →
        roundTrip ["hip", "knee"] ["knee", "waist"] x = .ok x)
      ↔ ["hip", "knee"] ⊆ ["knee", "waist"]) := by
  have hA : ["hip", "knee"].Nodup := by decide
  have hB : ["knee", "waist"].Nodup := by decide
  have h := adapters_inverse (F := ℚ) hA hB
  exact ⟨h.1 [3, 4] [5, 6] (Or.inr rfl), h.2.2⟩

end DoFAdapter

end RlDeploy
