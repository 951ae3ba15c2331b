/-
Systems that latch their inputs.

Many loops take two kinds of events. A *write* replaces a part of the
inputs the system holds and does nothing else; an *act* works from the
inputs as they stand. What such a system does is decided by the inputs it
finds at each act, its *snapshots*: an input that is overwritten in time
leaves no trace, and the order of writes to different parts is nobody's
business.

`run_latched` is that statement as a simulation. On one side runs the
system over its events, on the other a machine that is handed a snapshot
at each act and never sees a write; if they agree on one act they agree
on every run (`Alike`). `run_same_snapshots` compares two event lists:
equal snapshots, equal logs.
-/
import RlDeploy.Lib.Logged

namespace RlDeploy.Lib

namespace Latch

open Logged

variable {α φ σ τ ε ι κ : Type}

/-- The inputs after a list of events: `split` says of an event how it
writes the inputs, or what it asks the system to do. -/
def latched (split : ε → (ι → ι) ⊕ κ) (i : ι) (es : List ε) : ι :=
  es.foldl (fun i e =>
    match split e with
    | .inl f => f i
    | .inr _ => i) i

/-- The acts among the events, each with the inputs it finds. -/
def snapshots (split : ε → (ι → ι) ⊕ κ) : ι → List ε → List (ι × κ)
  | _, [] => []
  | i, e :: es =>
      match split e with
      | .inl f => snapshots split (f i) es
      | .inr k => (i, k) :: snapshots split i es

variable {split : ε → (ι → ι) ⊕ κ} {i : ι} {e : ε} {es : List ε}

theorem latched_write {f : ι → ι} (h : split e = .inl f) :
    latched split i (e :: es) = latched split (f i) es := by
  unfold latched
  rw [List.foldl_cons, h]

theorem latched_act {k : κ} (h : split e = .inr k) :
    latched split i (e :: es) = latched split i es := by
  unfold latched
  rw [List.foldl_cons, h]

theorem snapshots_write {f : ι → ι} (h : split e = .inl f) :
    snapshots split i (e :: es) = snapshots split (f i) es := by
  rw [snapshots, h]

theorem snapshots_act {k : κ} (h : split e = .inr k) :
    snapshots split i (e :: es) = (i, k) :: snapshots split i es := by
  rw [snapshots, h]

/-- Latch rule: a system whose writes only change what it holds, and
whose acts are those of a machine over snapshots, does on every run what
the machine does on the run's snapshots. -/
theorem run_latched {step : σ → ε → Logged α φ σ}
    {act : τ → ι × κ → Logged α φ τ} (R : ι → σ → τ → Prop)
    (hwrite : ∀ i s t e f, R i s t → split e = .inl f →
      ∃ s', step s e = ⟨[], .ok s'⟩ ∧ R (f i) s' t)
    (hact : ∀ i s t e k, R i s t → split e = .inr k →
      Alike (R i) (step s e) (act t (i, k))) :
    ∀ {es : List ε} {i : ι} {s : σ} {t : τ}, R i s t →
      Alike (R (latched split i es)) (run step s es)
        (run act t (snapshots split i es)) := by
  intro es
  induction es with
  | nil => intro i s t hR; exact Alike.pure hR
  | cons e es ih =>
      intro i s t hR
      rw [run_cons]
      cases he : split e with
      | inl f =>
          obtain ⟨s', hs', hR'⟩ := hwrite i s t e f hR he
          rw [hs', mk_ok_bind, latched_write he, snapshots_write he,
            List.nil_append]
          exact ih hR'
      | inr k =>
          rw [latched_act he, snapshots_act he, run_cons]
          exact (hact i s t e k hR he).bind fun s' t' hR' => ih hR'

/-- Two runs with equal snapshots: the logs are equal, and the runs end
in one error, or in states of one machine state. -/
theorem run_same_snapshots {step : σ → ε → Logged α φ σ}
    {act : τ → ι × κ → Logged α φ τ} {R : ι → σ → τ → Prop}
    (hwrite : ∀ i s t e f, R i s t → split e = .inl f →
      ∃ s', step s e = ⟨[], .ok s'⟩ ∧ R (f i) s' t)
    (hact : ∀ i s t e k, R i s t → split e = .inr k →
      Alike (R i) (step s e) (act t (i, k)))
    {es es' : List ε} {s : σ} {t : τ} (hR : R i s t)
    (h : snapshots split i es = snapshots split i es') :
    Alike (fun s s' => ∃ t, R (latched split i es) s t
        ∧ R (latched split i es') s' t)
      (run step s es) (run step s es') := by
  obtain ⟨hlog, hout⟩ : Alike (R (latched split i es)) (run step s es)
      (run act t (snapshots split i es)) := run_latched R hwrite hact hR
  obtain ⟨hlog', hout'⟩ : Alike (R (latched split i es')) (run step s es')
      (run act t (snapshots split i es')) := run_latched R hwrite hact hR
  rw [← h] at hlog' hout'
  refine ⟨hlog.trans hlog'.symm, ?_⟩
  rcases hout with ⟨e, hs, ht⟩ | ⟨s₁, t₁, hs, ht, hR₁⟩
  · rcases hout' with ⟨e', hs', ht'⟩ | ⟨s₂, t₂, hs', ht', -⟩
    · rw [ht] at ht'
      cases ht'
      exact Or.inl ⟨e, hs, hs'⟩
    · rw [ht] at ht'
      cases ht'
  · rcases hout' with ⟨e', hs', ht'⟩ | ⟨s₂, t₂, hs', ht', hR₂⟩
    · rw [ht] at ht'
      cases ht'
    · rw [ht] at ht'
      cases ht'
      exact Or.inr ⟨s₁, s₂, hs, hs', t₁, hR₁, hR₂⟩

end Latch

end RlDeploy.Lib
