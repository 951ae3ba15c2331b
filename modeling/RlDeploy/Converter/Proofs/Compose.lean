/-
Adapters one after the other.

A vector that goes through a chain of name lists loses an entry at the
first list that does not have its name, and does not get it back: what
a later list has under that name is the filler. So the end of a chain
holds an entry just where every list on the way has the name
(`chain_named`), and the chain does what one adapter from its first list
to its last does if and only if the names that these two share are in
all the lists between (`chain_direct_iff`).

The path of a joint through the controller is such a chain, from the
robot's order to the model's and back; a list in between that misses a
joint replaces it by `0`.
-/
import RlDeploy.Converter.Proofs.Inverse

namespace RlDeploy

open Lib

variable {F D : Type} [Scalar F D]

namespace DoFAdapter

/-- A vector under the names `A`, handed on from list to list. -/
def chain : List String → List (List String) → List F →
    Except Fault (List F)
  | _, [], x => .ok x
  | A, B :: rest, x => do
      let y ← (build A B ∅).fit x
      chain B rest y

/-- The last list of a chain. -/
def lastNames (A : List String) (rest : List (List String)) :
    List String :=
  rest.getLastD A

/-- A chain returns, and holds the entry of a name just where every list
on the way has it. -/
theorem chain_named : ∀ (rest : List (List String)) {A : List String}
    {x : List F}, A.Nodup → (∀ B ∈ rest, B.Nodup) →
    x.length = A.length →
    ∃ y, chain A rest x = .ok y
      ∧ y.length = (lastNames A rest).length
      ∧ ∀ (j : Nat) (n : String), (lastNames A rest)[j]? = some n →
        y[j]? = some (if ∀ B ∈ rest, n ∈ B
          then (valueAt A x n).getD 0 else 0) := by
  intro rest
  induction rest with
  | nil =>
      intro A x hA _ hx
      refine ⟨x, rfl, hx, ?_⟩
      intro j n hj
      have hj' : A[j]? = some n := hj
      have hlt : j < x.length := by
        rw [hx]
        exact (List.getElem?_eq_some_iff.mp hj').1
      have hall : ∀ B ∈ ([] : List (List String)), n ∈ B := by
        intro B hB
        cases hB
      rw [if_pos hall, valueAt_of_nodup hA hj',
        List.getElem?_eq_getElem hlt]
      rfl
  | cons B rest ih =>
      intro A x hA hrest hx
      have hB : B.Nodup := hrest B List.mem_cons_self
      obtain ⟨y₁, hy₁, hlen₁, hval₁⟩ := fit_named hA hB x (Or.inl rfl)
      obtain ⟨y, hy, hlen, hval⟩ := ih hB
        (fun B' hB' => hrest B' (List.mem_cons_of_mem _ hB')) hlen₁
      have hlast : lastNames A (B :: rest) = lastNames B rest := by
        unfold lastNames
        rw [List.getLastD_cons]
      refine ⟨y, ?_, by rw [hlast]; exact hlen, ?_⟩
      · rw [chain, hy₁, ok_bind]
        exact hy
      · rw [hlast]
        intro j n hj
        rw [hval j n hj]
        have hentry : (valueAt B y₁ n).getD 0
            = if n ∈ B then (valueAt A x n).getD 0 else 0 := by
          by_cases hn : n ∈ B
          · obtain ⟨i, hi⟩ := List.mem_iff_getElem?.mp hn
            rw [if_pos hn, valueAt_of_nodup hB hi, hval₁ i n hi]
            rfl
          · rw [if_neg hn, valueAt_eq_none hn]
            rfl
        rw [hentry]
        simp only [List.forall_mem_cons]
        by_cases hn : n ∈ B
        · simp only [hn, if_true, true_and]
        · simp only [hn, if_false, false_and, ite_self]

/-- A chain does what the one adapter from its first list to its last
does, on all vectors, if and only if no list in between misses a name
that these two share. -/
theorem chain_direct_iff [Nontrivial F] {A C : List String}
    {between : List (List String)} (hA : A.Nodup) (hC : C.Nodup)
    (hbetween : ∀ B ∈ between, B.Nodup) :
    (∀ x : List F, x.length = A.length →
        chain A (between ++ [C]) x = (build A C ∅).fit x)
      ↔ ∀ n ∈ A, n ∈ C → ∀ B ∈ between, n ∈ B := by
  have hnodup : ∀ B ∈ between ++ [C], B.Nodup := by
    intro B hB
    rcases List.mem_append.mp hB with hB | hB
    · exact hbetween B hB
    · rw [List.mem_singleton.mp hB]
      exact hC
  have hlast : lastNames A (between ++ [C]) = C := by
    unfold lastNames
    rw [List.getLastD_eq_getLast?, List.getLast?_concat]
    rfl
  constructor
  · intro h n hnA hnC B hB
    -- a vector without a zero entry shows what got lost
    obtain ⟨a, ha⟩ := exists_ne (0 : F)
    obtain ⟨i, hi⟩ := List.mem_iff_getElem?.mp hnA
    obtain ⟨j, hj⟩ := List.mem_iff_getElem?.mp hnC
    have hlt := (List.getElem?_eq_some_iff.mp hi).1
    have hlen : (List.replicate A.length a).length = A.length :=
      List.length_replicate
    obtain ⟨y, hy, -, hval⟩ := chain_named (between ++ [C]) hA hnodup hlen
    obtain ⟨z, hz, -, hdirect⟩ := fit_named hA hC
      (List.replicate A.length a) (Or.inl rfl)
    rw [h _ hlen, hz] at hy
    cases hy
    have hchain := hval j n (by rw [hlast]; exact hj)
    have hfit := hdirect j n hj
    have hvalue : (valueAt A (List.replicate A.length a) n).getD 0
        = a := by
      rw [valueAt_of_nodup hA hi, List.getElem?_replicate, if_pos hlt]
      rfl
    rw [hchain] at hfit
    by_contra hmiss
    rw [if_neg fun hall => hmiss (hall B (List.mem_append_left _ hB))]
      at hfit
    have hzero := Option.some.inj hfit
    exact ha (hvalue.symm.trans hzero.symm)
  · intro h x hx
    obtain ⟨y, hy, hlen, hval⟩ := chain_named (between ++ [C]) hA hnodup hx
    obtain ⟨z, hz, hzlen, hdirect⟩ := fit_named hA hC x (Or.inl rfl)
    rw [hlast] at hlen hval
    rw [hy, hz]
    congr 1
    apply ext_named hlen hzlen
    intro j n hj
    rw [hval j n hj, hdirect j n hj]
    by_cases hnA : n ∈ A
    · have hall : ∀ B ∈ between ++ [C], n ∈ B := by
        intro B hB
        rcases List.mem_append.mp hB with hB | hB
        · exact h n hnA (List.mem_of_getElem? hj) B hB
        · rw [List.mem_singleton.mp hB]
          exact List.mem_of_getElem? hj
      rw [if_pos hall]
      rfl
    · rw [valueAt_eq_none hnA]
      simp

/-- From the robot's list through the model's to the wire's: `waist` is
lost to a model that does not have it. -/
theorem chain_direct_iff_waist :
    (∀ x : List ℚ, x.length = 2 →
        chain ["hip", "waist"] ([["knee", "hip"]] ++ [["waist", "hip"]]) x
          = (build ["hip", "waist"] ["waist", "hip"] ∅).fit x)
      ↔ ∀ n ∈ ["hip", "waist"], n ∈ ["waist", "hip"] →
        ∀ B ∈ [["knee", "hip"]], n ∈ B := by
  have hA : ["hip", "waist"].Nodup := by decide
  have hC : ["waist", "hip"].Nodup := by decide
  have hbetween : ∀ B ∈ [["knee", "hip"]], B.Nodup := by decide
  exact chain_direct_iff hA hC hbetween

end DoFAdapter

end RlDeploy
