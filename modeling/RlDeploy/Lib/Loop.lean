/-
Counted loops over vectors whose reads can go past the end.

`read` is `xs[i]` with the read past the end as an error that names the
vector, `tabulate n f` is the loop `for i in 0..n: out.push_back(f i)`.
A C loop over a vector that is too short has no defined behaviour; here
it stops with the vector's name, so "no index is out of range" is the
statement that the loop returns, and which vector was short is kept.

`bind_eq_ok_iff` and `bind_eq_error_iff` take a sequence apart. The loop
lemmas say when a loop returns (`tabulate_isOk_iff`), what it
returns (`tabulate_read`, `tabulate_read₂`) and which iteration an error
comes from (`tabulate_error`).
-/
import Mathlib.Tactic

namespace RlDeploy.Lib

variable {α β γ φ : Type}

/-- `xs[i]`; past the end the error is the vector's name `v`. -/
def read (v : φ) (xs : List α) (i : Nat) : Except φ α :=
  match xs[i]? with
  | some x => .ok x
  | none => .error v

/-- `xs[i]` at a signed index; a negative one is out of range too. -/
def readInt (v : φ) (xs : List α) (i : Int) : Except φ α :=
  if i < 0 then .error v else read v xs i.toNat

/-- The counted loop that pushes back `f 0, …, f (n-1)`. -/
def tabulate (n : Nat) (f : Nat → Except φ α) : Except φ (List α) :=
  (List.range n).mapM f

-- ======================================================== sequencing

@[simp] theorem ok_bind (a : α) (f : α → Except φ β) :
    (Except.ok a >>= f) = f a := rfl

@[simp] theorem error_bind (e : φ) (f : α → Except φ β) :
    ((Except.error e : Except φ α) >>= f) = .error e := rfl

@[simp] theorem pure_ok (a : α) : (pure a : Except φ α) = .ok a := rfl

/-- A sequence returns exactly when both parts do. -/
theorem bind_eq_ok_iff {x : Except φ α} {f : α → Except φ β} {b : β} :
    (x >>= f) = .ok b ↔ ∃ a, x = .ok a ∧ f a = .ok b := by
  cases x <;> simp

/-- A value read off what a call returned. -/
theorem map_ok {x : Except φ α} {f : α → β} {b : β}
    (h : x.map f = .ok b) : ∃ a, x = .ok a ∧ f a = b := by
  cases x with
  | error e => cases h
  | ok a =>
      cases h
      exact ⟨a, rfl, rfl⟩

/-- A sequence fails in its first part, or in its second. -/
theorem bind_eq_error_iff {x : Except φ α} {f : α → Except φ β}
    {e : φ} :
    (x >>= f) = .error e
      ↔ x = .error e ∨ ∃ a, x = .ok a ∧ f a = .error e := by
  cases x <;> simp

-- ============================================================= reads

theorem read_eq_ok_iff {v : φ} {xs : List α} {i : Nat} {x : α} :
    read v xs i = .ok x ↔ xs[i]? = some x := by
  unfold read
  cases xs[i]? <;> simp

theorem read_eq_error_iff {v e : φ} {xs : List α} {i : Nat} :
    read v xs i = .error e ↔ xs.length ≤ i ∧ v = e := by
  unfold read
  cases h : xs[i]? with
  | none =>
      rw [List.getElem?_eq_none_iff] at h
      simp [h]
  | some x =>
      obtain ⟨hlt, -⟩ := List.getElem?_eq_some_iff.mp h
      simp
      omega

theorem read_of_lt (v : φ) {xs : List α} {i : Nat} (h : i < xs.length) :
    read v xs i = .ok xs[i] :=
  read_eq_ok_iff.mpr (List.getElem?_eq_getElem h)

theorem read_isOk_iff {v : φ} {xs : List α} {i : Nat} :
    (∃ x, read v xs i = .ok x) ↔ i < xs.length := by
  constructor
  · rintro ⟨x, hx⟩
    exact (List.getElem?_eq_some_iff.mp (read_eq_ok_iff.mp hx)).1
  · intro h
    exact ⟨xs[i], read_of_lt v h⟩

theorem readInt_natCast (v : φ) (xs : List α) (i : Nat) :
    readInt v xs (i : Int) = read v xs i := by
  unfold readInt
  rw [if_neg (by omega), Int.toNat_natCast]

-- ============================================================= loops

@[simp] theorem tabulate_zero (f : Nat → Except φ α) :
    tabulate 0 f = .ok [] := rfl

/-- One more iteration at the end of the loop. -/
theorem tabulate_succ (n : Nat) (f : Nat → Except φ α) :
    tabulate (n + 1) f
      = (do
          let xs ← tabulate n f
          let x ← f n
          pure (xs ++ [x])) := by
  unfold tabulate
  rw [List.range_succ, List.mapM_append]
  simp

/-- The loop of `n + 1` iterations returns exactly when the first `n`
return and the last one does. -/
theorem tabulate_succ_eq_ok_iff {n : Nat} {f : Nat → Except φ α}
    {ys : List α} :
    tabulate (n + 1) f = .ok ys
      ↔ ∃ xs x, tabulate n f = .ok xs ∧ f n = .ok x ∧ ys = xs ++ [x] := by
  rw [tabulate_succ]
  simp only [bind_eq_ok_iff, pure_ok, Except.ok.injEq, exists_and_left,
    eq_comm (b := ys)]

theorem tabulate_length {n : Nat} {f : Nat → Except φ α} {ys : List α}
    (h : tabulate n f = .ok ys) : ys.length = n := by
  induction n generalizing ys with
  | zero => cases h; rfl
  | succ n ih =>
      obtain ⟨xs, x, hxs, -, rfl⟩ := tabulate_succ_eq_ok_iff.mp h
      rw [List.length_append, ih hxs, List.length_singleton]

/-- A loop over a list returns exactly the results of its items, one for
each and in order. -/
theorem mapM_eq_ok_iff {f : α → Except φ β} {xs : List α} {ys : List β} :
    xs.mapM f = .ok ys ↔ List.Forall₂ (fun x y => f x = .ok y) xs ys := by
  induction xs generalizing ys with
  | nil =>
      rw [List.mapM_nil, List.forall₂_nil_left_iff]
      exact ⟨fun h => by cases h; rfl, fun h => by rw [h]; rfl⟩
  | cons x xs ih =>
      rw [List.mapM_cons, bind_eq_ok_iff, List.forall₂_cons_left_iff]
      constructor
      · rintro ⟨y, hy, h⟩
        obtain ⟨zs, hzs, h⟩ := bind_eq_ok_iff.mp h
        cases h
        exact ⟨y, zs, hy, ih.mp hzs, rfl⟩
      · rintro ⟨y, zs, hy, hzs, rfl⟩
        refine ⟨y, hy, bind_eq_ok_iff.mpr ⟨zs, ih.mpr hzs, rfl⟩⟩

theorem mapM_length {f : α → Except φ β} {xs : List α} {ys : List β}
    (h : xs.mapM f = .ok ys) : ys.length = xs.length :=
  (mapM_eq_ok_iff.mp h).length_eq.symm

/-- Where a partial function is defined on every item, it gives as many
results. -/
theorem mapM_option_length {f : α → Option β} :
    ∀ {xs : List α} {ys : List β}, xs.mapM f = some ys →
      ys.length = xs.length := by
  intro xs
  induction xs with
  | nil =>
      intro ys h
      rw [List.mapM_nil] at h
      cases h
      rfl
  | cons x xs ih =>
      intro ys h
      rw [List.mapM_cons] at h
      cases hx : f x with
      | none =>
          rw [hx] at h
          cases h
      | some y =>
          cases hxs : xs.mapM f with
          | none =>
              rw [hx, hxs] at h
              cases h
          | some zs =>
              rw [hx, hxs] at h
              cases h
              rw [List.length_cons, List.length_cons, ih hxs]

/-- The result of the item at `k` stands at `k`. -/
theorem mapM_getElem? {f : α → Except φ β} {xs : List α} {ys : List β}
    (h : xs.mapM f = .ok ys) {k : Nat} {x : α} (hk : xs[k]? = some x) :
    ∃ y, ys[k]? = some y ∧ f x = .ok y := by
  obtain ⟨hlen, hget⟩ := List.forall₂_iff_get.mp (mapM_eq_ok_iff.mp h)
  obtain ⟨hx, rfl⟩ := List.getElem?_eq_some_iff.mp hk
  have hy : k < ys.length := hlen ▸ hx
  exact ⟨ys[k], List.getElem?_eq_getElem hy, hget k hx hy⟩

/-- One item that fails makes the loop fail. -/
theorem mapM_error {f : α → Except φ β} {xs : List α} {x : α} {e : φ}
    (hx : x ∈ xs) (he : f x = .error e) : ∃ e', xs.mapM f = .error e' := by
  cases h : xs.mapM f with
  | error e' => exact ⟨e', rfl⟩
  | ok ys =>
      obtain ⟨k, hk⟩ := List.mem_iff_getElem?.mp hx
      obtain ⟨y, -, hy⟩ := mapM_getElem? h hk
      rw [he] at hy
      cases hy

/-- A loop returns exactly when every iteration does. -/
theorem tabulate_isOk_iff {n : Nat} {f : Nat → Except φ α} :
    (∃ ys, tabulate n f = .ok ys) ↔ ∀ i < n, ∃ x, f i = .ok x := by
  induction n with
  | zero => simp
  | succ n ih =>
      constructor
      · rintro ⟨ys, hys⟩ i hi
        obtain ⟨xs, x, hxs, hx, -⟩ := tabulate_succ_eq_ok_iff.mp hys
        rcases Nat.lt_succ_iff_lt_or_eq.mp hi with hlt | rfl
        · exact ih.mp ⟨xs, hxs⟩ i hlt
        · exact ⟨x, hx⟩
      · intro h
        obtain ⟨xs, hxs⟩ := ih.mpr fun i hi => h i (by omega)
        obtain ⟨x, hx⟩ := h n (by omega)
        exact ⟨xs ++ [x], tabulate_succ_eq_ok_iff.mpr ⟨xs, x, hxs, hx, rfl⟩⟩

/-- The error of a loop is the error of one of its iterations. -/
theorem tabulate_error {n : Nat} {f : Nat → Except φ α} {e : φ}
    (h : tabulate n f = .error e) : ∃ i < n, f i = .error e := by
  induction n with
  | zero => cases h
  | succ n ih =>
      rw [tabulate_succ] at h
      rcases bind_eq_error_iff.mp h with h | ⟨xs, -, h⟩
      · obtain ⟨i, hi, hf⟩ := ih h
        exact ⟨i, by omega, hf⟩
      · rcases bind_eq_error_iff.mp h with h | ⟨x, -, h⟩
        · exact ⟨n, by omega, h⟩
        · cases h

/-- The copying loop over a long enough vector returns its prefix. -/
theorem tabulate_read {n : Nat} (v : φ) {xs : List α}
    (h : n ≤ xs.length) : tabulate n (read v xs) = .ok (xs.take n) := by
  induction n with
  | zero => rfl
  | succ n ih =>
      rw [tabulate_succ_eq_ok_iff]
      have hn : n < xs.length := by omega
      exact ⟨_, _, ih (by omega), read_of_lt v hn,
        List.take_succ_eq_append_getElem hn⟩

/-- The copying loop names the vector it ran out of. -/
theorem tabulate_read_error {n : Nat} {v e : φ} {xs : List α}
    (h : tabulate n (read v xs) = .error e) : v = e ∧ xs.length < n := by
  obtain ⟨i, hi, he⟩ := tabulate_error h
  obtain ⟨hle, hv⟩ := read_eq_error_iff.mp he
  exact ⟨hv, by omega⟩

theorem tabulate_read_isOk_iff {n : Nat} {v : φ} {xs : List α} :
    (∃ ys, tabulate n (read v xs) = .ok ys) ↔ n ≤ xs.length := by
  rw [tabulate_isOk_iff]
  simp only [read_isOk_iff]
  constructor
  · intro h
    by_contra hlt
    exact absurd (h xs.length (by omega)) (by omega)
  · intro h i hi
    omega

-- ============================================ loops over two vectors

/-- One iteration that combines `xs[i]` and `ys[i]`. -/
def read₂ (v w : φ) (f : α → β → γ) (xs : List α) (ys : List β)
    (i : Nat) : Except φ γ := do
  let x ← read v xs i
  let y ← read w ys i
  return f x y

theorem read₂_isOk_iff {v w : φ} {f : α → β → γ} {xs : List α}
    {ys : List β} {i : Nat} :
    (∃ z, read₂ v w f xs ys i = .ok z)
      ↔ i < xs.length ∧ i < ys.length := by
  rw [← read_isOk_iff (v := v), ← read_isOk_iff (v := w)]
  unfold read₂
  cases read v xs i <;> cases read w ys i <;> simp

/-- The combining loop over long enough vectors is the `zipWith` of
their prefixes. -/
theorem tabulate_read₂ {n : Nat} (v w : φ) (f : α → β → γ)
    {xs : List α} {ys : List β} (hx : n ≤ xs.length)
    (hy : n ≤ ys.length) :
    tabulate n (read₂ v w f xs ys)
      = .ok (List.zipWith f (xs.take n) (ys.take n)) := by
  induction n with
  | zero => rfl
  | succ n ih =>
      have hnx : n < xs.length := by omega
      have hny : n < ys.length := by omega
      rw [tabulate_succ_eq_ok_iff]
      refine ⟨_, f xs[n] ys[n], ih (by omega) (by omega), ?_, ?_⟩
      · unfold read₂
        rw [read_of_lt v hnx, read_of_lt w hny]
        rfl
      · rw [List.take_succ_eq_append_getElem hnx,
          List.take_succ_eq_append_getElem hny,
          List.zipWith_append (by simp; omega)]
        rfl

theorem tabulate_read₂_isOk_iff {n : Nat} {v w : φ} {f : α → β → γ}
    {xs : List α} {ys : List β} :
    (∃ zs, tabulate n (read₂ v w f xs ys) = .ok zs)
      ↔ n ≤ xs.length ∧ n ≤ ys.length := by
  constructor
  · intro h
    rw [tabulate_isOk_iff] at h
    simp only [read₂_isOk_iff] at h
    constructor
    · by_contra hlt
      exact absurd (h xs.length (by omega)).1 (by omega)
    · by_contra hlt
      exact absurd (h ys.length (by omega)).2 (by omega)
  · rintro ⟨hx, hy⟩
    exact ⟨_, tabulate_read₂ v w f hx hy⟩

/-- The combining loop names the vector it ran out of. -/
theorem tabulate_read₂_error {n : Nat} {v w e : φ} {f : α → β → γ}
    {xs : List α} {ys : List β}
    (h : tabulate n (read₂ v w f xs ys) = .error e) :
    (v = e ∧ xs.length < n) ∨ (w = e ∧ ys.length < n) := by
  obtain ⟨i, hi, he⟩ := tabulate_error h
  unfold read₂ at he
  rcases bind_eq_error_iff.mp he with hx | ⟨x, -, he⟩
  · obtain ⟨hle, hv⟩ := read_eq_error_iff.mp hx
    exact Or.inl ⟨hv, by omega⟩
  · rcases bind_eq_error_iff.mp he with hy | ⟨y, -, he⟩
    · obtain ⟨hle, hw⟩ := read_eq_error_iff.mp hy
      exact Or.inr ⟨hw, by omega⟩
    · cases he

end RlDeploy.Lib
