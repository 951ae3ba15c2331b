/-
What an observer of the node sees: the protocol of its log.

`Next` is a state machine over the actions alone, the phases an observer
can tell apart: what is asked next, what is handed on, what is published.
It knows of no message, no flag and no converter. Every log of every run
takes it through its phases (`follows_protocol`), for every model, also
one that throws or answers in wrong sizes, and for a run that an
exception ended as well: such a log stops in the middle of a tick, and
is in order up to there. A run that returns leaves the protocol at rest,
after as many ticks as there were timer events for.
-/
import RlDeploy.Node.Proofs.Track

namespace RlDeploy

open Lib

variable {F D : Type} [Scalar F D]

-- ======================================================== the protocol

/-- Where a node is, as far as its actions tell. -/
inductive Phase (F : Type)
  /-- Nothing was asked. -/
  | fresh
  /-- The dry run was answered. -/
  | warm (r : InferenceResult F)
  /-- The dry run and `k` ticks are over. -/
  | rest (k : Nat)
  /-- Tick `k` was answered. -/
  | answered (k : Nat) (r : InferenceResult F)
  /-- The answer of tick `k` was handed on. -/
  | moving (k : Nat)
  /-- The model did not answer. -/
  | failed

/-- What may come next. The dry run asks on zeros at the start timestep.
Tick `k` asks `k` timesteps after it, and after the first one only before
the last timestep, if there is one. Each answer is handed on as it is,
and then comes the command. -/
inductive Next (net : Policy F) (start last : Int) :
    Phase F → Act F D → Phase F → Prop
  | dryRun {r : InferenceResult F}
      (h : net.infer (List.replicate net.obsSize 0) start = .ok r) :
      Next net start last .fresh
        (.infer (List.replicate net.obsSize 0) start) (.warm r)
  | dryRunFails {e : Fault}
      (h : net.infer (List.replicate net.obsSize 0) start = .error e) :
      Next net start last .fresh
        (.infer (List.replicate net.obsSize 0) start) .failed
  | warmed (r : InferenceResult F) :
      Next net start last (.warm r) (.process r.actions) (.rest 0)
  | ask {k : Nat} {obs : List F} {r : InferenceResult F}
      (hk : k = 0 ∨ last ≤ 0 ∨ start + k < last)
      (h : net.infer obs (start + k) = .ok r) :
      Next net start last (.rest k) (.infer obs (start + k))
        (.answered k r)
  | askFails {k : Nat} {obs : List F} {e : Fault}
      (hk : k = 0 ∨ last ≤ 0 ∨ start + k < last)
      (h : net.infer obs (start + k) = .error e) :
      Next net start last (.rest k) (.infer obs (start + k)) .failed
  | act (k : Nat) (r : InferenceResult F) :
      Next net start last (.answered k r) (.process r.actions) (.moving k)
  | command (k : Nat) (cmd : JointState D) :
      Next net start last (.moving k) (.publish cmd) (.rest (k + 1))

/-- A log takes the protocol from a phase to a phase. -/
inductive Follows (net : Policy F) (start last : Int) :
    Phase F → List (Act F D) → Phase F → Prop
  | nil (p : Phase F) : Follows net start last p [] p
  | cons {p p' q : Phase F} {a : Act F D} {log : List (Act F D)}
      (h : Next net start last p a p')
      (hs : Follows net start last p' log q) :
      Follows net start last p (a :: log) q

namespace Follows

variable {net : Policy F} {s m : Int} {p q r : Phase F}
  {log log' : List (Act F D)}

theorem append (h : Follows net s m p log q)
    (h' : Follows net s m q log' r) :
    Follows net s m p (log ++ log') r := by
  induction h with
  | nil => exact h'
  | cons hnext _ ih => exact .cons hnext (ih h')

theorem one {a : Act F D} (h : Next net s m p a q) :
    Follows net s m p [a] q :=
  .cons h (.nil q)

end Follows

-- ============================================================ the node

namespace RLControllerNode

/-- The phase after so many ready timer events. -/
def phaseAfter (s m : Int) (ready : Nat) : Phase F :=
  if ready = 0 then .fresh else .rest (ticks s m ready)

variable [Eigen F] {net : Policy F} {s m : Int} {n n' : RLControllerNode F D}
  {evs : List (Event D)} {l : List (Act F D)}

omit [Scalar F D] [Eigen F] in
theorem phaseAfter_pos {k : Nat} (hk : 0 < k) :
    (phaseAfter s m k : Phase F) = .rest (ticks s m k) :=
  if_neg (by omega)

omit [Scalar F D] [Eigen F] in
/-- At a tick the protocol is at rest and lets the node ask. -/
theorem Track.mayAsk (h : Track s m evs n) (hi : n.initialized = true)
    (hd : n.flagMotionDone = false) :
    ∃ k : Nat, (phaseAfter s m (seen evs).ready : Phase F) = .rest k
      ∧ n.timestep = s + k ∧ (k = 0 ∨ m ≤ 0 ∨ s + k < m)
      ∧ (phaseAfter s m ((seen evs).ready + 1) : Phase F)
        = .rest (k + 1) := by
  have hpos := h.ready_pos hi
  have hrun : motionDone s m (seen evs).ready = false :=
    h.flagMotionDone.symm.trans hd
  have hticks := ticks_of_running hrun
  have hnext := ticks_succ_of_running hpos hrun
  rw [motionDone_eq_false_iff] at hrun
  unfold horizon at hrun
  refine ⟨ticks s m (seen evs).ready, phaseAfter_pos hpos, h.timestep,
    ?_, ?_⟩
  · rw [hticks]
    omega
  · rw [phaseAfter_pos (Nat.succ_pos _), hnext, hticks]
    congr 1
    omega

/-- A timer callback that returns. -/
theorem follows_timerStep (h : Track s m evs n)
    (hts : TimerStep net n l n') :
    Follows net s m (phaseAfter s m (seen evs).ready) l
      (phaseAfter s m (seen (evs ++ [.timer])).ready) := by
  have hboth := h.both
  rw [seen_snoc, Seen.next_timer, ← hboth]
  cases hts with
  | waiting hw =>
      rw [hw]
      exact .nil _
  | init hw hi hr =>
      rw [hw, if_pos rfl, h.ready_zero hi]
      have hstart : n.timestep = s := by
        have := h.timestep
        rwa [h.ready_zero hi, ticks_of_le_one (Nat.zero_le _),
          Int.natCast_zero, add_zero] at this
      rw [hstart] at hr ⊢
      have hend : (phaseAfter s m (0 + 1) : Phase F) = .rest 0 := by
        rw [phaseAfter_pos (Nat.succ_pos _), ticks_of_le_one (le_refl _)]
      rw [hend]
      exact .cons (.dryRun hr) (.one (.warmed _))
  | done hw hi hd =>
      have hdone := h.flagMotionDone.symm.trans hd
      have hpos := h.ready_pos hi
      rw [hw, if_pos rfl, phaseAfter_pos hpos,
        phaseAfter_pos (Nat.succ_pos _), ticks_of_done hdone]
      exact .nil _
  | tick hw hi hd ho hr =>
      obtain ⟨k, hk, ht, hmay, hnext⟩ := h.mayAsk hi hd
      rw [hw, if_pos rfl, hk, hnext, ht]
      rw [ht] at hr
      exact .cons (.ask hmay hr) (.cons (.act k _) (.one (.command k _)))

/-- A timer callback that an exception stops. -/
theorem follows_timerStop {e : Fault} (h : Track s m evs n)
    (hts : TimerStop net n l e) :
    ∃ q, Follows net s m (phaseAfter s m (seen evs).ready) l q := by
  have hstart : n.initialized = false →
      (phaseAfter s m (seen evs).ready : Phase F) = .fresh
        ∧ n.timestep = s := by
    intro hi
    have ht := h.timestep
    rw [h.ready_zero hi, ticks_of_le_one (Nat.zero_le _),
      Int.natCast_zero, add_zero] at ht
    rw [h.ready_zero hi]
    exact ⟨rfl, ht⟩
  cases hts with
  | initInfer hw hi hr =>
      obtain ⟨hp, ht⟩ := hstart hi
      rw [hp, ht]
      rw [ht] at hr
      exact ⟨_, .one (.dryRunFails hr)⟩
  | initMotion hw hi hr =>
      obtain ⟨hp, ht⟩ := hstart hi
      rw [hp, ht]
      rw [ht] at hr
      exact ⟨_, .one (.dryRun hr)⟩
  | initProcess hw hi hr =>
      obtain ⟨hp, ht⟩ := hstart hi
      rw [hp, ht]
      rw [ht] at hr
      exact ⟨_, .cons (.dryRun hr) (.one (.warmed _))⟩
  | observe => exact ⟨_, .nil _⟩
  | infer hw hi hd ho hr =>
      obtain ⟨k, hk, ht, hmay, -⟩ := h.mayAsk hi hd
      rw [hk, ht]
      rw [ht] at hr
      exact ⟨_, .one (.askFails hmay hr)⟩
  | process hw hi hd ho hr =>
      obtain ⟨k, hk, ht, hmay, -⟩ := h.mayAsk hi hd
      rw [hk, ht]
      rw [ht] at hr
      exact ⟨_, .cons (.ask hmay hr) (.one (.act k _))⟩
  | target hw hi hd ho hr =>
      obtain ⟨k, hk, ht, hmay, -⟩ := h.mayAsk hi hd
      rw [hk, ht]
      rw [ht] at hr
      exact ⟨_, .cons (.ask hmay hr) (.one (.act k _))⟩

/-- Every run that returns leaves the protocol at rest, after the ticks
its events allow. -/
theorem follows_run {cfg : BeyondMimicConfig F}
    (h : (run net (start cfg s m) evs).out = .ok n) :
    Follows net s m .fresh (run net (start cfg s m) evs).log
      (phaseAfter s m (seen evs).ready) := by
  refine Logged.run_past (fun evs log _ =>
    Follows net s m .fresh log (phaseAfter s m (seen evs).ready))
    (.nil _) ?_ h
  intro evs n e n' hrun hlog hstep
  apply hlog.append
  cases e with
  | jointState msg =>
      cases hstep
      rw [seen_snoc]
      exact .nil _
  | imu msg =>
      cases hstep
      rw [seen_snoc]
      exact .nil _
  | timer => exact follows_timerStep (track_run hrun) (timerStep_of_ok hstep)

/-- Every run keeps the protocol. -/
theorem follows_protocol (net : Policy F) (cfg : BeyondMimicConfig F)
    (s m : Int) (evs : List (Event D)) :
    ∃ q, Follows net s m .fresh (run net (start cfg s m) evs).log q
      ∧ ∀ n, (run net (start cfg s m) evs).out = .ok n →
        q = phaseAfter s m (seen evs).ready := by
  cases hout : (run net (start cfg s m) evs).out with
  | ok n => exact ⟨_, follows_run hout, fun _ _ => rfl⟩
  | error f =>
      obtain ⟨pre, e, post, n, -, hpre, hfail, hlog⟩ :=
        Logged.run_stopped hout
      have hlast : ∃ q, Follows net s m
          (phaseAfter s m (seen pre).ready) (step net n e).log q := by
        cases e with
        | jointState msg => cases hfail
        | imu msg => cases hfail
        | timer =>
            exact follows_timerStop (track_run hpre)
              (timerStop_of_error hfail)
      obtain ⟨q, hq⟩ := hlast
      refine ⟨q, ?_, ?_⟩
      · show Follows net s m .fresh
          (Logged.run (step net) (start cfg s m) evs).log q
        rw [hlog]
        exact (follows_run hpre).append hq
      · intro n' hn'
        cases hn'

end RLControllerNode

end RlDeploy
