/-
Runs of one system as images of another's.

Two systems can do the same thing in different vocabularies: indices
permuted, a clock shifted, a name replaced. `Image g R` says so of two
computations: the second one's log is the first one's translated by `g`,
and both stop with the same error or return related values. Sequencing
keeps it (`Image.bind`), so it is checked on the parts of a step, and
`run_image` carries it to runs.
-/
import RlDeploy.Lib.Logged

namespace RlDeploy.Lib

namespace Logged

variable {α α' φ σ τ ε : Type}

/-- The translated log, and the same end. -/
structure Image (g : α → α') (R : σ → τ → Prop) (x : Logged α φ σ)
    (y : Logged α' φ τ) : Prop where
  log : y.log = x.log.map g
  out : (∃ e, x.out = .error e ∧ y.out = .error e)
    ∨ ∃ s t, x.out = .ok s ∧ y.out = .ok t ∧ R s t

theorem Image.pure {g : α → α'} {R : σ → τ → Prop} {s : σ} {t : τ}
    (h : R s t) :
    Image g R (pure s : Logged α φ σ) (pure t : Logged α' φ τ) :=
  ⟨rfl, Or.inr ⟨s, t, rfl, rfl, h⟩⟩

/-- One action, and its translation. -/
theorem Image.emit (g : α → α') (a : α) :
    Image g (fun _ _ => True) (emit a : Logged α φ Unit)
      (emit (g a) : Logged α' φ Unit) :=
  ⟨rfl, Or.inr ⟨(), (), rfl, rfl, trivial⟩⟩

/-- Two computations without actions, which fail together. -/
theorem Image.lift {g : α → α'} {R : σ → τ → Prop} {x : Except φ σ}
    {y : Except φ τ}
    (h : (∃ e, x = .error e ∧ y = .error e)
      ∨ ∃ s t, x = .ok s ∧ y = .ok t ∧ R s t) :
    Image g R (lift x : Logged α φ σ) (lift y : Logged α' φ τ) :=
  ⟨rfl, h⟩

/-- One and the same computation without actions. -/
theorem Image.same (g : α → α') (x : Except φ σ) :
    Image g Eq (Logged.lift x : Logged α φ σ)
      (Logged.lift x : Logged α' φ σ) := by
  apply Image.lift
  cases x with
  | error e => exact Or.inl ⟨e, rfl, rfl⟩
  | ok s => exact Or.inr ⟨s, s, rfl, rfl, rfl⟩

/-- A computation without actions, and the same one with its value
translated. -/
theorem Image.mapped (g : α → α') (x : Except φ σ) (f : σ → τ) :
    Image g (fun s t => t = f s) (Logged.lift x : Logged α φ σ)
      (Logged.lift (x.map f) : Logged α' φ τ) := by
  apply Image.lift
  cases x with
  | error e => exact Or.inl ⟨e, rfl, rfl⟩
  | ok s => exact Or.inr ⟨s, f s, rfl, rfl, rfl⟩

theorem Image.bind {σ' τ' : Type} {g : α → α'} {R : σ → τ → Prop}
    {R' : σ' → τ' → Prop} {x : Logged α φ σ} {y : Logged α' φ τ}
    {f : σ → Logged α φ σ'} {f' : τ → Logged α' φ τ'}
    (h : Image g R x y) (hf : ∀ s t, R s t → Image g R' (f s) (f' t)) :
    Image g R' (x >>= f) (y >>= f') := by
  obtain ⟨hlog, ⟨e, hx, hy⟩ | ⟨s, t, hx, hy, hR⟩⟩ := h
  · rw [bind_of_error f hx, bind_of_error f' hy]
    exact ⟨hlog, Or.inl ⟨e, rfl, rfl⟩⟩
  · obtain ⟨hlog', hout⟩ := hf s t hR
    rw [bind_of_ok f hx, bind_of_ok f' hy]
    refine ⟨?_, hout⟩
    show y.log ++ (f' t).log = (x.log ++ (f s).log).map g
    rw [List.map_append, hlog, hlog']

/-- Image rule: related states whose steps on related events are images
have runs that are images. -/
theorem run_image {ε' : Type} (step : σ → ε → Logged α φ σ)
    (step' : τ → ε' → Logged α' φ τ) (g : α → α') (R : σ → τ → Prop)
    (E : ε → ε' → Prop)
    (hstep : ∀ s t e e', R s t → E e e' →
      Image g R (step s e) (step' t e')) :
    ∀ {es : List ε} {es' : List ε'} {s : σ} {t : τ}, R s t →
      List.Forall₂ E es es' →
      Image g R (run step s es) (run step' t es') := by
  intro es es' s t hR hes
  induction hes generalizing s t with
  | nil => exact Image.pure hR
  | cons he _ ih =>
      rw [run_cons, run_cons]
      exact (hstep s t _ _ hR he).bind fun s' t' hR' => ih hR'

end Logged

end RlDeploy.Lib
