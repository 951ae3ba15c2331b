/-
Computations that may stop with an error and that keep the log of the
actions they took up to there, and the runs of a system whose step is
such a computation.

# Why the log survives the error

A step of a deployed loop acts on the world in the middle of its work
(a call, a message sent) and may stop later in the same step. A plain
`Except` would drop the actions of the failing step, so a statement on
"every call the system ever made" would not see the last one. Here the
log and the outcome are two components, and an error keeps the log.

# The rules

`run` folds a step over a list of events. Nine rules carry the
inductions of the developments on top, so that a client only proves
facts on one step:

- `run_quiet`: states in which no event takes an action;
- `run_ok`: an invariant under which no step fails, hence no run does;
- `run_inv`: an invariant kept by every step that returns;
- `run_past`: a fact on the state, the events that led to it and what
  they logged;
- `run_log`: a fact on every logged action of every run;
- `run_fault`: a fact on the error of every run that fails;
- `run_sim`: two systems in lockstep, with equal logs, none of which
  fails;
- `run_alike`: two systems in lockstep that may fail, and then do so at
  the same event with the same error;
- `run_verdict`: a fact on the events alone that decides which runs
  return.
-/
import Mathlib.Tactic

namespace RlDeploy.Lib

/-- A computation with a log: the actions taken, and how it ended. -/
structure Logged (α φ β : Type) where
  log : List α
  out : Except φ β

namespace Logged

variable {α φ β γ σ τ ε : Type}

@[ext] theorem ext {x y : Logged α φ β} (hl : x.log = y.log)
    (ho : x.out = y.out) : x = y := by
  cases x
  cases y
  simp_all

/-- Sequencing: an error stops the computation and keeps its log. -/
def bind (x : Logged α φ β) (f : β → Logged α φ γ) : Logged α φ γ :=
  match x.out with
  | .ok b => ⟨x.log ++ (f b).log, (f b).out⟩
  | .error e => ⟨x.log, .error e⟩

instance : Monad (Logged α φ) where
  pure b := ⟨[], .ok b⟩
  bind := bind

/-- Take one action. -/
def emit (a : α) : Logged α φ Unit := ⟨[a], .ok ()⟩

/-- A fallible computation that takes no action. -/
def lift (x : Except φ β) : Logged α φ β := ⟨[], x⟩

instance : MonadLift (Except φ) (Logged α φ) := ⟨lift⟩

-- ====================================================== the simp set

@[simp] theorem pure_eq (b : β) :
    (pure b : Logged α φ β) = ⟨[], .ok b⟩ := rfl

@[simp] theorem emit_eq (a : α) :
    (emit a : Logged α φ Unit) = ⟨[a], .ok ()⟩ := rfl

@[simp] theorem monadLift_eq (x : Except φ β) :
    (monadLift x : Logged α φ β) = ⟨[], x⟩ := rfl

@[simp] theorem mk_ok_bind (l : List α) (b : β) (f : β → Logged α φ γ) :
    ((⟨l, .ok b⟩ : Logged α φ β) >>= f)
      = ⟨l ++ (f b).log, (f b).out⟩ := rfl

@[simp] theorem mk_error_bind (l : List α) (e : φ)
    (f : β → Logged α φ γ) :
    ((⟨l, .error e⟩ : Logged α φ β) >>= f) = ⟨l, .error e⟩ := rfl

/-- Sequencing after a computation known to return. -/
theorem bind_of_ok {x : Logged α φ β} {b : β} (f : β → Logged α φ γ)
    (hx : x.out = .ok b) :
    (x >>= f) = ⟨x.log ++ (f b).log, (f b).out⟩ := by
  obtain ⟨l, o⟩ := x
  cases hx
  rfl

/-- Sequencing after a computation known to fail. -/
theorem bind_of_error {x : Logged α φ β} {e : φ} (f : β → Logged α φ γ)
    (hx : x.out = .error e) : (x >>= f) = ⟨x.log, .error e⟩ := by
  obtain ⟨l, o⟩ := x
  cases hx
  rfl

/-- A sequence returns only through a first part that returns. -/
theorem bind_out_ok {x : Logged α φ β} {f : β → Logged α φ γ} {c : γ}
    (h : (x >>= f).out = .ok c) :
    ∃ b, x.out = .ok b ∧ (f b).out = .ok c := by
  cases hx : x.out with
  | error e => rw [bind_of_error f hx] at h; cases h
  | ok b => rw [bind_of_ok f hx] at h; exact ⟨b, rfl, h⟩

instance : LawfulMonad (Logged α φ) := LawfulMonad.mk' _
  (by
    rintro β ⟨l, o⟩
    cases o with
    | error e => rfl
    | ok b => exact ext (List.append_nil l) rfl)
  (fun _ _ => rfl)
  (by
    rintro β γ δ ⟨l, o⟩ f g
    cases o with
    | error e => rfl
    | ok b =>
        rw [mk_ok_bind, mk_ok_bind]
        cases hf : (f b).out with
        | error e =>
            rw [bind_of_error g hf, mk_error_bind]
        | ok c =>
            rw [bind_of_ok g hf, mk_ok_bind]
            exact ext (List.append_assoc ..) rfl)

-- ============================================================== runs

/-- Feed a list of events to a step function; an error ends the run. -/
def run (step : σ → ε → Logged α φ σ) (s : σ) (es : List ε) :
    Logged α φ σ :=
  es.foldlM step s

theorem run_cons (step : σ → ε → Logged α φ σ) (s : σ) (e : ε)
    (es : List ε) :
    run step s (e :: es) = step s e >>= fun s' => run step s' es := by
  unfold run
  rw [List.foldlM_cons]

/-- A run over a concatenation is the run over the first part followed
by the run over the second. -/
theorem run_append (step : σ → ε → Logged α φ σ) (s : σ)
    (es fs : List ε) :
    run step s (es ++ fs)
      = run step s es >>= fun s' => run step s' fs := by
  unfold run
  rw [List.foldlM_append]

/-- A run of a single event is a step. -/
theorem run_singleton (step : σ → ε → Logged α φ σ) (s : σ) (e : ε) :
    run step s [e] = step s e := by
  rw [run_cons]
  exact bind_pure (step s e)

/-- One more event at the end of a run that returned. -/
theorem run_snoc {step : σ → ε → Logged α φ σ} {s s' : σ}
    {es : List ε} (e : ε) (h : (run step s es).out = .ok s') :
    run step s (es ++ [e])
      = ⟨(run step s es).log ++ (step s' e).log, (step s' e).out⟩ := by
  rw [run_append, bind_of_ok _ h, run_singleton]

/-- A run returns when its first part does and the last step does. -/
theorem run_snoc_returns {step : σ → ε → Logged α φ σ} {s : σ}
    {es : List ε} {e : ε} :
    (∃ s', (run step s (es ++ [e])).out = .ok s')
      ↔ ∃ s₁, (run step s es).out = .ok s₁
        ∧ ∃ s', (step s₁ e).out = .ok s' := by
  constructor
  · rintro ⟨s', h⟩
    rw [run_append] at h
    obtain ⟨s₁, h₁, h₂⟩ := bind_out_ok h
    rw [run_singleton] at h₂
    exact ⟨s₁, h₁, s', h₂⟩
  · rintro ⟨s₁, h₁, s', h₂⟩
    exact ⟨s', by rw [run_snoc e h₁, h₂]⟩

/-- A run logs what its first part logged, then the next step. -/
theorem run_log_append {step : σ → ε → Logged α φ σ} {s s' : σ}
    {es : List ε} (e : ε) (fs : List ε)
    (h : (run step s es).out = .ok s') :
    ∃ l, (run step s (es ++ e :: fs)).log
      = (run step s es).log ++ (step s' e).log ++ l := by
  rw [run_append, bind_of_ok _ h, run_cons]
  cases he : (step s' e).out with
  | error f =>
      rw [bind_of_error _ he]
      exact ⟨[], (List.append_nil _).symm⟩
  | ok s'' =>
      rw [bind_of_ok _ he]
      exact ⟨_, (List.append_assoc ..).symm⟩

/-- Invariant rule, total form: under `Inv` no admitted event fails and
`Inv` is kept, so no run of admitted events fails. -/
theorem run_ok {step : σ → ε → Logged α φ σ} (Inv : σ → Prop)
    (Adm : ε → Prop)
    (hstep : ∀ s e, Inv s → Adm e →
      ∃ s', (step s e).out = .ok s' ∧ Inv s') :
    ∀ {es : List ε} {s : σ}, Inv s → (∀ e ∈ es, Adm e) →
      ∃ s', (run step s es).out = .ok s' ∧ Inv s' := by
  intro es
  induction es with
  | nil => intro s hs _; exact ⟨s, rfl, hs⟩
  | cons e es ih =>
      intro s hs hadm
      obtain ⟨s₁, h₁, hs₁⟩ := hstep s e hs (hadm e (List.mem_cons_self ..))
      obtain ⟨s₂, h₂, hs₂⟩ :=
        ih hs₁ fun e' he' => hadm e' (List.mem_cons_of_mem e he')
      refine ⟨s₂, ?_, hs₂⟩
      rw [run_cons, bind_of_ok _ h₁]
      exact h₂

/-- Quiet rule: where no event takes an action, and each leads to such a
state again, no run takes one. -/
theorem run_quiet {step : σ → ε → Logged α φ σ} (Inv : σ → Prop)
    (hstep : ∀ s e, Inv s → ∃ s', step s e = ⟨[], .ok s'⟩ ∧ Inv s') :
    ∀ (es : List ε) {s : σ}, Inv s →
      ∃ s', run step s es = ⟨[], .ok s'⟩ ∧ Inv s' := by
  intro es
  induction es with
  | nil => intro s hs; exact ⟨s, rfl, hs⟩
  | cons e es ih =>
      intro s hs
      obtain ⟨s₁, h₁, hs₁⟩ := hstep s e hs
      obtain ⟨s₂, h₂, hs₂⟩ := ih hs₁
      refine ⟨s₂, ?_, hs₂⟩
      rw [run_cons, h₁, mk_ok_bind, h₂]
      rfl

/-- Invariant rule, partial form: a fact kept by every step that returns
holds at the end of every run that returns. -/
theorem run_inv {step : σ → ε → Logged α φ σ} (Inv : σ → Prop)
    (hstep : ∀ s e s', Inv s → (step s e).out = .ok s' → Inv s') :
    ∀ {es : List ε} {s s' : σ}, Inv s →
      (run step s es).out = .ok s' → Inv s' := by
  intro es
  induction es with
  | nil =>
      intro s s' hs h
      cases h
      exact hs
  | cons e es ih =>
      intro s s' hs h
      rw [run_cons] at h
      obtain ⟨s₁, h₁, h₂⟩ := bind_out_ok h
      exact ih (hstep s e s₁ hs h₁) h₂

/-- History rule: a fact on the events so far, what they logged and the
state, kept by every step that returns, holds at the end of every run
that returns. -/
theorem run_past {step : σ → ε → Logged α φ σ} {s₀ : σ}
    (Inv : List ε → List α → σ → Prop) (hinit : Inv [] [] s₀)
    (hstep : ∀ {es : List ε} {s : σ} {e : ε} {s' : σ},
      (run step s₀ es).out = .ok s → Inv es (run step s₀ es).log s →
      (step s e).out = .ok s' →
      Inv (es ++ [e]) ((run step s₀ es).log ++ (step s e).log) s') :
    ∀ {es : List ε} {s : σ}, (run step s₀ es).out = .ok s →
      Inv es (run step s₀ es).log s := by
  intro es
  induction es using List.reverseRecOn with
  | nil =>
      intro s h
      cases h
      exact hinit
  | append_singleton es e ih =>
      intro s h
      rw [run_append] at h
      obtain ⟨s₁, h₁, h₂⟩ := bind_out_ok h
      rw [run_singleton] at h₂
      rw [run_snoc e h₁]
      exact hstep h₁ (ih h₁) h₂

/-- A run that fails returns up to the event whose step fails. -/
theorem run_stopped {step : σ → ε → Logged α φ σ} {f : φ} :
    ∀ {es : List ε} {s : σ}, (run step s es).out = .error f →
      ∃ pre e post s', es = pre ++ e :: post
        ∧ (run step s pre).out = .ok s' ∧ (step s' e).out = .error f
        ∧ (run step s es).log
          = (run step s pre).log ++ (step s' e).log := by
  intro es
  induction es with
  | nil => intro s h; cases h
  | cons e es ih =>
      intro s h
      rw [run_cons] at h
      cases h₁ : (step s e).out with
      | error f₁ =>
          rw [bind_of_error _ h₁] at h
          cases h
          refine ⟨[], e, es, s, rfl, rfl, h₁, ?_⟩
          rw [run_cons, bind_of_error _ h₁]
          exact (List.nil_append _).symm
      | ok s₁ =>
          rw [bind_of_ok _ h₁] at h
          obtain ⟨pre, e', post, s', rfl, hpre, hfail, hlog⟩ := ih h
          refine ⟨e :: pre, e', post, s', rfl, ?_, hfail, ?_⟩
          · rw [run_cons, bind_of_ok _ h₁]
            exact hpre
          · rw [run_cons, run_cons, bind_of_ok _ h₁, bind_of_ok _ h₁]
            show _ ++ _ = (_ ++ _) ++ _
            rw [hlog, List.append_assoc]

/-- Log rule: a fact on every action a step takes, also a failing step,
is a fact on every action of every run. -/
theorem run_log {step : σ → ε → Logged α φ σ} (Inv : σ → Prop)
    (P : α → Prop)
    (hlog : ∀ s e, Inv s → ∀ a ∈ (step s e).log, P a)
    (hstep : ∀ s e s', Inv s → (step s e).out = .ok s' → Inv s') :
    ∀ {es : List ε} {s : σ}, Inv s →
      ∀ a ∈ (run step s es).log, P a := by
  intro es
  induction es with
  | nil => intro s _ a ha; cases ha
  | cons e es ih =>
      intro s hs a ha
      rw [run_cons] at ha
      cases h₁ : (step s e).out with
      | error err =>
          rw [bind_of_error _ h₁] at ha
          exact hlog s e hs a ha
      | ok s₁ =>
          rw [bind_of_ok _ h₁] at ha
          rcases List.mem_append.mp ha with ha | ha
          · exact hlog s e hs a ha
          · exact ih (hstep s e s₁ hs h₁) a ha

/-- Every action of a run is an action of one of its steps, taken from
the state an earlier part of the run returned; the run logs the whole
step. -/
theorem mem_run_log {step : σ → ε → Logged α φ σ} {a : α} :
    ∀ {es : List ε} {s : σ}, a ∈ (run step s es).log →
      ∃ pre e s', (run step s pre).out = .ok s' ∧ a ∈ (step s' e).log
        ∧ ∀ b ∈ (step s' e).log, b ∈ (run step s es).log := by
  intro es
  induction es using List.reverseRecOn with
  | nil =>
      intro s ha
      cases ha
  | append_singleton es e ih =>
      intro s ha
      rw [run_append] at ha ⊢
      cases hout : (run step s es).out with
      | error f =>
          rw [bind_of_error _ hout] at ha ⊢
          exact ih ha
      | ok s' =>
          rw [bind_of_ok _ hout, run_singleton] at ha ⊢
          rcases List.mem_append.mp ha with hmem | hmem
          · obtain ⟨pre, e', s₁, hs₁, he', hsub⟩ := ih hmem
            exact ⟨pre, e', s₁, hs₁, he', fun b hb =>
              List.mem_append_left _ (hsub b hb)⟩
          · exact ⟨es, e, s', hout, hmem, fun b hb =>
              List.mem_append_right _ hb⟩

/-- Fault rule: a fact on the error of a failing step is a fact on the
error of every failing run. -/
theorem run_fault {step : σ → ε → Logged α φ σ} (Inv : σ → Prop)
    (P : φ → Prop)
    (hfault : ∀ s e f, Inv s → (step s e).out = .error f → P f)
    (hstep : ∀ s e s', Inv s → (step s e).out = .ok s' → Inv s') :
    ∀ {es : List ε} {s : σ} {f : φ}, Inv s →
      (run step s es).out = .error f → P f := by
  intro es
  induction es with
  | nil => intro s f _ h; cases h
  | cons e es ih =>
      intro s f hs h
      rw [run_cons] at h
      cases h₁ : (step s e).out with
      | error f₁ =>
          rw [bind_of_error _ h₁] at h
          cases h
          exact hfault s e f hs h₁
      | ok s₁ =>
          rw [bind_of_ok _ h₁] at h
          exact ih (hstep s e s₁ hs h₁) h

/-- Simulation rule: related states take equal actions on an admitted
event and stay related, so related states have runs with equal logs. -/
theorem run_sim {step : σ → ε → Logged α φ σ}
    {step' : τ → ε → Logged α φ τ} (R : σ → τ → Prop) (Adm : ε → Prop)
    (hstep : ∀ s t e, R s t → Adm e → (step s e).log = (step' t e).log ∧
      ∃ s' t', (step s e).out = .ok s' ∧ (step' t e).out = .ok t'
        ∧ R s' t') :
    ∀ {es : List ε} {s : σ} {t : τ}, R s t → (∀ e ∈ es, Adm e) →
      (run step s es).log = (run step' t es).log ∧
      ∃ s' t', (run step s es).out = .ok s'
        ∧ (run step' t es).out = .ok t' ∧ R s' t' := by
  intro es
  induction es with
  | nil => intro s t hR _; exact ⟨rfl, s, t, rfl, rfl, hR⟩
  | cons e es ih =>
      intro s t hR hadm
      obtain ⟨hl, s₁, t₁, hs, ht, hR₁⟩ :=
        hstep s t e hR (hadm e (List.mem_cons_self ..))
      obtain ⟨hl', s₂, t₂, hs₂, ht₂, hR₂⟩ :=
        ih hR₁ fun e' he' => hadm e' (List.mem_cons_of_mem e he')
      rw [run_cons, run_cons, bind_of_ok _ hs, bind_of_ok _ ht]
      exact ⟨by rw [hl, hl'], s₂, t₂, hs₂, ht₂, hR₂⟩

-- ----------------------------------------------- lockstep with errors

/-- Equal logs, and the same end: one error, or related values. -/
structure Alike (R : σ → τ → Prop) (x : Logged α φ σ)
    (y : Logged α φ τ) : Prop where
  log : x.log = y.log
  out : (∃ e, x.out = .error e ∧ y.out = .error e)
    ∨ ∃ s t, x.out = .ok s ∧ y.out = .ok t ∧ R s t

theorem Alike.pure {R : σ → τ → Prop} {s : σ} {t : τ} (h : R s t) :
    Alike R (pure s : Logged α φ σ) (pure t) :=
  ⟨rfl, Or.inr ⟨s, t, rfl, rfl, h⟩⟩

/-- Sequencing keeps computations alike. -/
theorem Alike.bind {σ' τ' : Type} {R : σ → τ → Prop}
    {R' : σ' → τ' → Prop} {x : Logged α φ σ} {y : Logged α φ τ}
    {f : σ → Logged α φ σ'} {g : τ → Logged α φ τ'} (h : Alike R x y)
    (hfg : ∀ s t, R s t → Alike R' (f s) (g t)) :
    Alike R' (x >>= f) (y >>= g) := by
  obtain ⟨hlog, ⟨e, hx, hy⟩ | ⟨s, t, hx, hy, hR⟩⟩ := h
  · rw [bind_of_error f hx, bind_of_error g hy]
    exact ⟨hlog, Or.inl ⟨e, rfl, rfl⟩⟩
  · obtain ⟨hlog', hout⟩ := hfg s t hR
    rw [bind_of_ok f hx, bind_of_ok g hy]
    refine ⟨?_, hout⟩
    show x.log ++ (f s).log = y.log ++ (g t).log
    rw [hlog, hlog']

/-- Lockstep rule: related states whose steps on an admitted event are
alike have runs that are alike. -/
theorem run_alike {step : σ → ε → Logged α φ σ}
    {step' : τ → ε → Logged α φ τ} (R : σ → τ → Prop) (Adm : ε → Prop)
    (hstep : ∀ s t e, R s t → Adm e → Alike R (step s e) (step' t e)) :
    ∀ {es : List ε} {s : σ} {t : τ}, R s t → (∀ e ∈ es, Adm e) →
      Alike R (run step s es) (run step' t es) := by
  intro es
  induction es with
  | nil => intro s t hR _; exact Alike.pure hR
  | cons e es ih =>
      intro s t hR hadm
      rw [run_cons, run_cons]
      apply (hstep s t e hR (hadm e (List.mem_cons_self ..))).bind
      intro s' t' hR'
      exact ih hR' fun e' he' => hadm e' (List.mem_cons_of_mem e he')

/-- Verdict rule: when every step from a good history either returns into
a good history, or fails with a `Bad` error into one that is not good,
then the good runs return and all others end in a `Bad` error. -/
theorem run_verdict (step : σ → ε → Logged α φ σ) {s₀ : σ}
    (Inv : List ε → σ → Prop) (Good : List ε → Prop) (Bad : φ → Prop)
    (Adm : ε → Prop) (hinit : Inv [] s₀) (hgood : Good [])
    (hmono : ∀ es e, Good (es ++ [e]) → Good es)
    (hstep : ∀ es e s, Inv es s → Good es → Adm e →
      (Good (es ++ [e])
        ∧ ∃ s', (step s e).out = .ok s' ∧ Inv (es ++ [e]) s')
      ∨ (¬ Good (es ++ [e])
        ∧ ∃ f, (step s e).out = .error f ∧ Bad f))
    (es : List ε) (hadm : ∀ e ∈ es, Adm e) :
    (Good es → ∃ s, (run step s₀ es).out = .ok s ∧ Inv es s)
      ∧ (¬ Good es → ∃ f, (run step s₀ es).out = .error f ∧ Bad f) := by
  induction es using List.reverseRecOn with
  | nil => exact ⟨fun _ => ⟨s₀, rfl, hinit⟩, fun h => absurd hgood h⟩
  | append_singleton es e ih =>
      obtain ⟨ihok, iherr⟩ :=
        ih fun e' he' => hadm e' (List.mem_append_left _ he')
      have he : Adm e := hadm e (by simp)
      rw [run_append]
      by_cases hes : Good es
      case neg =>
        obtain ⟨f, hf, hbad⟩ := iherr hes
        rw [bind_of_error _ hf]
        exact ⟨fun h => absurd (hmono es e h) hes, fun _ => ⟨f, rfl, hbad⟩⟩
      obtain ⟨s, hs, hinv⟩ := ihok hes
      rw [bind_of_ok _ hs, run_singleton]
      rcases hstep es e s hinv hes he with ⟨hg, h⟩ | ⟨hg, h⟩
      · exact ⟨fun _ => h, fun hn => absurd hg hn⟩
      · exact ⟨fun hn => absurd hn hg, fun _ => h⟩

end Logged

end RlDeploy.Lib
