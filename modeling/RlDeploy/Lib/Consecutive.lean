/-
What a run puts out, one output after the other.

Some of the actions a system logs are outputs (`pick`). A bound on how
far an output may be from the one before it is a fact about neighbours,
so no invariant on single states gives it. What a state has to keep is
what it takes to judge the next output against the last one: `Left b s`,
the state `s` is one that put out `b` last.

`run_chain` is the rule: every step either puts nothing out and leaves
the last output standing, or puts out one that is related to whatever
stood, and leaves that. The outputs of every run are then a chain of the
relation, also of a run that stops in an error on its way.
-/
import RlDeploy.Lib.Logged
import Mathlib.Data.List.Chain

namespace RlDeploy.Lib

namespace Logged

variable {α β φ σ ε : Type}

/-- A step by what it puts out: nothing, and what was put out last still
stands; or one output, related to every output that stood. -/
inductive PutsOut (pick : α → Option β) (Left : β → σ → Prop)
    (R : β → β → Prop) (s : σ) (log : List α) (s' : σ) : Prop
  | nothing (hlog : log.filterMap pick = [])
      (hleft : ∀ b, Left b s → Left b s')
  | one (b' : β) (hlog : log.filterMap pick = [b']) (hleft : Left b' s')
      (hnext : ∀ b, Left b s → R b b')

/-- Chain rule: consecutive outputs of a run are related. -/
theorem run_chain {step : σ → ε → Logged α φ σ} (pick : α → Option β)
    (Inv : σ → Prop) (Left : β → σ → Prop) (R : β → β → Prop)
    (hstep : ∀ s e s', Inv s → (step s e).out = .ok s' →
      Inv s' ∧ PutsOut pick Left R s (step s e).log s')
    (hstop : ∀ s e f, Inv s → (step s e).out = .error f →
      (step s e).log.filterMap pick = []) :
    ∀ {es : List ε} {s : σ}, Inv s →
      ((run step s es).log.filterMap pick).IsChain R := by
  -- with the first output related to what the start left, if anything
  have key : ∀ (es : List ε) (s : σ), Inv s →
      ((run step s es).log.filterMap pick).IsChain R
      ∧ ∀ b, Left b s →
        ∀ b' ∈ ((run step s es).log.filterMap pick).head?, R b b' := by
    intro es
    induction es with
    | nil =>
        intro s hs
        refine ⟨List.IsChain.nil, ?_⟩
        intro b _ b' hb'
        cases hb'
    | cons e es ih =>
        intro s hs
        rw [run_cons]
        cases hout : (step s e).out with
        | error f =>
            rw [bind_of_error _ hout, hstop s e f hs hout]
            refine ⟨List.IsChain.nil, ?_⟩
            intro b _ b' hb'
            cases hb'
        | ok s' =>
            obtain ⟨hs', hputs⟩ := hstep s e s' hs hout
            obtain ⟨hchain, hhead⟩ := ih s' hs'
            rw [bind_of_ok _ hout, List.filterMap_append]
            cases hputs with
            | nothing hlog hleft =>
                rw [hlog, List.nil_append]
                exact ⟨hchain, fun b hb => hhead b (hleft b hb)⟩
            | one b₁ hlog hleft hnext =>
                rw [hlog, List.singleton_append]
                refine ⟨List.isChain_cons.mpr ⟨hhead b₁ hleft, hchain⟩, ?_⟩
                intro b hb b' hb'
                rw [List.head?_cons, Option.mem_some_iff] at hb'
                rw [← hb']
                exact hnext b hb
  intro es s hs
  exact (key es s hs).1

end Logged

end RlDeploy.Lib
