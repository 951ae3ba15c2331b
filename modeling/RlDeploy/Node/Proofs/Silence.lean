/-
When the controller goes silent.

A controller that drives a robot has to keep commanding it: from its
first command on, every timer event publishes one, and the timer events
after the end of the motion repeat the last one. `timerCallback` says so
in a comment ("Keep publishing last command (hold position)"), but its
done branch returns without publishing.

`NeverSilent` states the property of a run. The configuration has to be
runnable: a default position or a scale that is missing is read all the
same, past the end of its vector, and what the controller does from
there on nobody can say. The runs with the property are then exactly
those that end before a timer event finds the motion done
(`never_silent_iff`). The counting is done by `seen`: the publishing
timer events are the ready ones from the second up to `horizon + 1`
(`published_length`).
-/
import RlDeploy.Node.Proofs.Steady

namespace RlDeploy

open Lib

variable {F D : Type} [Scalar F D] [Eigen F]

namespace RLControllerNode

-- ======================================================= the property

/-- The done flag after the events `evs`. -/
def doneAt (net : Policy F) (n : RLControllerNode F D)
    (evs : List (Event D)) : Bool :=
  match (run net n evs).out with
  | .ok n' => n'.flagMotionDone
  | .error _ => false

/-- A run of `n` over `evs` that never goes silent. -/
structure NeverSilent (net : Policy F) (n : RLControllerNode F D)
    (evs : List (Event D)) : Prop where
  /-- After a timer event that publishes, each one publishes exactly one
  command. -/
  publishes : ∀ pre mid post : List (Event D),
    evs = pre ++ .timer :: (mid ++ .timer :: post) →
    published (logAt net n pre .timer) ≠ [] →
    ∃ cmd, published (logAt net n (pre ++ .timer :: mid) .timer) = [cmd]
  /-- A timer event with the done flag set repeats the last command
  published before the event `e` had set it. -/
  holds : ∀ (pre : List (Event D)) (e : Event D)
    (mid post : List (Event D)),
    evs = pre ++ e :: (mid ++ .timer :: post) →
    doneAt net n pre = false → doneAt net n (pre ++ [e]) = true →
    doneAt net n (pre ++ e :: mid) = true →
    ∃ cmd last,
      published (logAt net n (pre ++ e :: mid) .timer) = [cmd]
      ∧ (published (run net n (pre ++ [e])).log).getLast? = some last
      ∧ cmd.name = last.name ∧ cmd.position = last.position

-- ================================================== counting by `seen`

section Seen

omit [Scalar F D] [Eigen F]

/-- Every count below the last is the count before some ready timer
event. -/
theorem ready_split {evs : List (Event D)} {k : Nat}
    (h : k < (seen evs).ready) :
    ∃ pre post, evs = pre ++ .timer :: post
      ∧ (seen pre).both = true ∧ (seen pre).ready = k := by
  induction evs using List.reverseRecOn with
  | nil => cases h
  | append_singleton evs e ih =>
      -- an earlier event has the count, or the last one does
      by_cases hlt : k < (seen evs).ready
      case pos =>
        obtain ⟨pre, post, rfl, hboth, hk⟩ := ih hlt
        exact ⟨pre, post ++ [e], by simp, hboth, hk⟩
      rw [seen_snoc] at h
      cases e with
      | jointState msg => exact absurd h hlt
      | imu msg => exact absurd h hlt
      | timer =>
          rw [Seen.next_timer] at h
          split at h
          next hboth =>
            have h' : k < (seen evs).ready + 1 := h
            exact ⟨evs, [], rfl, hboth, by omega⟩
          next => exact absurd h hlt

end Seen

-- ============================================= the publishing events

/-- The next timer event is a control tick. -/
def drives (s m : Int) (x : Seen D) : Bool :=
  x.both && decide (0 < x.ready) && !motionDone s m x.ready

omit [Scalar F D] [Eigen F] in
theorem drives_eq_true_iff {s m : Int} {x : Seen D} :
    drives s m x = true ↔ x.both = true ∧ 0 < x.ready
      ∧ motionDone s m x.ready = false := by
  unfold drives
  simp [and_assoc]

variable {cfg : BeyondMimicConfig F} {net : Policy F} {s m : Int}

/-- On a runnable configuration the control ticks publish one command
each, and no other event publishes. -/
theorem published_length (hcfg : cfg.Runnable)
    (hnet : net.WellSized cfg.numDof cfg.numBodies)
    (pre : List (Event D)) :
    (published (logAt net (start cfg s m) pre .timer)).length
      = if drives s m (seen pre) then 1 else 0 := by
  obtain ⟨n, hrun, hs⟩ := run_ok hcfg hnet s m pre
  have htrack := track_run hrun
  have hb := DataConverter.configure_ready DataConverter.init hcfg
  rw [← DataConverter.configure_numDof DataConverter.init cfg,
    ← DataConverter.configure_numBodies DataConverter.init cfg] at hnet
  obtain ⟨l, n', ht, -⟩ := timer_progress hb hnet hs
  have hlog : logAt net (start cfg s m) pre .timer = l := by
    unfold logAt
    rw [hrun]
    show (n.timerCallback net).log = l
    rw [ht.timerCallback]
  have hboth := htrack.both
  have hinit := htrack.initialized
  have hdone := htrack.flagMotionDone
  rw [hlog]
  unfold drives
  rw [← hboth, ← hinit, ← hdone]
  cases ht with
  | waiting hw => simp [hw, published]
  | init hw hi hr hm hp => simp [hw, hi, published]
  | done hw hi hd => simp [hw, hi, hd, published]
  | tick hw hi hd ho hr hp ht => simp [hw, hi, hd, published]

/-- What publishes is a control tick. -/
theorem drives_of_published (hcfg : cfg.Runnable)
    (hnet : net.WellSized cfg.numDof cfg.numBodies)
    {pre : List (Event D)}
    (hpub : published (logAt net (start cfg s m) pre .timer) ≠ []) :
    drives s m (seen pre) = true := by
  have hlen := published_length (s := s) (m := m) hcfg hnet pre
  by_contra hno
  rw [if_neg hno] at hlen
  exact hpub (List.length_eq_zero_iff.mp hlen)

/-- The event that sets the done flag publishes. -/
theorem published_of_done {n : RLControllerNode F D}
    {pre : List (Event D)} {e : Event D}
    (h₀ : doneAt net n pre = false)
    (h₁ : doneAt net n (pre ++ [e]) = true) :
    e = .timer ∧ published (logAt net n pre .timer) ≠ [] := by
  unfold doneAt at h₀ h₁
  cases hrun : (run net n (pre ++ [e])).out with
  | error f =>
      rw [hrun] at h₁
      cases h₁
  | ok n' =>
      rw [hrun] at h₁
      unfold run at hrun
      rw [Logged.run_append] at hrun
      obtain ⟨n₁, hrun₁, hstep⟩ := Logged.bind_out_ok hrun
      rw [Logged.run_singleton] at hstep
      replace hrun₁ : (run net n pre).out = .ok n₁ := hrun₁
      rw [hrun₁] at h₀
      cases e with
      | jointState msg =>
          cases hstep
          exact absurd (h₀.symm.trans h₁) (by simp)
      | imu msg =>
          cases hstep
          exact absurd (h₀.symm.trans h₁) (by simp)
      | timer =>
          refine ⟨rfl, ?_⟩
          have ht := timerStep_of_ok hstep
          have hlog : logAt net n pre .timer
              = (n₁.timerCallback net).log := by
            unfold logAt
            rw [hrun₁]
            rfl
          rw [hlog]
          generalize (n₁.timerCallback net).log = l at ht
          cases ht with
          | waiting => exact absurd (h₀.symm.trans h₁) (by simp)
          | init => exact absurd (h₀.symm.trans h₁) (by simp)
          | done => exact absurd (h₀.symm.trans h₁) (by simp)
          | tick => simp [published]

/-- A run with a timer event after the end of the motion goes silent. -/
theorem not_neverSilent (hcfg : cfg.Runnable)
    (hnet : net.WellSized cfg.numDof cfg.numBodies) (hm : 0 < m)
    {evs : List (Event D)}
    (hlong : horizon s m + 1 < (seen evs).ready) :
    ¬ NeverSilent net (start cfg s m) evs := by
  intro h
  have hpos : 0 < horizon s m := Nat.lt_of_lt_of_le Nat.one_pos
    (Nat.le_max_left ..)
  -- the first tick publishes, the timer event past the horizon does not
  obtain ⟨pre₂, post, rfl, hboth₂, hready₂⟩ := ready_split hlong
  obtain ⟨pre₁, mid, rfl, hboth₁, hready₁⟩ :=
    ready_split (show 1 < (seen pre₂).ready by omega)
  have hfirst := published_length (s := s) (m := m) hcfg hnet pre₁
  have hlast := published_length (s := s) (m := m) hcfg hnet
    (pre₁ ++ .timer :: mid)
  have hd₁ : drives s m (seen pre₁) = true := by
    rw [drives_eq_true_iff, hready₁]
    exact ⟨hboth₁, Nat.one_pos, motionDone_of_le_one (le_refl _)⟩
  have hd₂ : ¬ drives s m (seen (pre₁ ++ .timer :: mid)) = true := by
    rw [drives_eq_true_iff, hready₂]
    intro ⟨_, _, hrun⟩
    exact motionDone_eq_false_iff.mp hrun ⟨hm, le_refl _⟩
  rw [if_pos hd₁] at hfirst
  rw [if_neg hd₂] at hlast
  obtain ⟨cmd, hcmd⟩ := h.publishes pre₁ mid post (by simp) (by
    intro hnil
    rw [hnil] at hfirst
    cases hfirst)
  rw [hcmd] at hlast
  cases hlast

/-- The runs that never go silent: those without a last timestep, and
those that end with the motion. -/
theorem never_silent_iff (hcfg : cfg.Runnable)
    (hnet : net.WellSized cfg.numDof cfg.numBodies)
    (evs : List (Event D)) :
    NeverSilent net (start cfg s m) evs
      ↔ m ≤ 0 ∨ (seen evs).ready ≤ horizon s m + 1 := by
  constructor
  · intro h
    by_contra hno
    push Not at hno
    obtain ⟨hm, hlong⟩ := hno
    exact not_neverSilent hcfg hnet hm hlong h
  · intro hcond
    -- a timer event of the run never finds the motion done
    have hrunning : ∀ pre post : List (Event D),
        evs = pre ++ .timer :: post → (seen pre).both = true →
        motionDone s m (seen pre).ready = false := by
      intro pre post hevs hboth
      have hmono := (seen_mono (pre ++ [.timer]) post).1
      rw [seen_timer hboth, List.append_assoc, List.singleton_append,
        ← hevs] at hmono
      apply motionDone_eq_false_iff.mpr
      intro ⟨hm, hlong⟩
      rcases hcond with h | h
      · omega
      · omega
    refine ⟨?_, ?_⟩
    · intro pre mid post hevs hpub
      obtain ⟨hboth, hpos, -⟩ :=
        drives_eq_true_iff.mp (drives_of_published hcfg hnet hpub)
      obtain ⟨hle, hkeep⟩ := seen_mono pre (.timer :: mid)
      have hrun := hrunning (pre ++ .timer :: mid) post
        (by rw [hevs]; simp) (hkeep hboth)
      have hdrive : drives s m (seen (pre ++ .timer :: mid)) = true :=
        drives_eq_true_iff.mpr ⟨hkeep hboth, by omega, hrun⟩
      have hnext := published_length (s := s) (m := m) hcfg hnet
        (pre ++ .timer :: mid)
      rw [if_pos hdrive] at hnext
      exact List.length_eq_one_iff.mp hnext
    · intro pre e mid post hevs h₀ h₁ h₂
      obtain ⟨rfl, hpub⟩ := published_of_done h₀ h₁
      obtain ⟨hboth, -, -⟩ :=
        drives_eq_true_iff.mp (drives_of_published hcfg hnet hpub)
      obtain ⟨n, hrun, -⟩ := run_ok hcfg hnet s m (pre ++ .timer :: mid)
      -- the bookkeeping says that the motion is still running
      have hflag : n.flagMotionDone = true := by
        unfold doneAt at h₂
        rw [hrun] at h₂
        exact h₂
      have hrunning' := hrunning (pre ++ .timer :: mid) post
        (by rw [hevs]; simp) ((seen_mono pre _).2 hboth)
      rw [← (track_run hrun).flagMotionDone, hflag] at hrunning'
      cases hrunning'

-- ============================================================ instances

/-- A model without motion outputs that always answers zero actions. -/
def idle : Policy ℚ where
  obsSize := 19
  infer _ _ := .ok { actions := [0, 0] }

theorem idle_wellSized :
    idle.WellSized DataConverter.crossed.numDof
      DataConverter.crossed.numBodies :=
  fun _ _ => ⟨_, rfl, rfl, Or.inl rfl⟩

/-- One timer event more. -/
def threeTimers : List (Event ℚ) := twoReady ++ [.timer]

theorem never_silent_three :
    NeverSilent idle (start DataConverter.crossed 0 5) threeTimers :=
  (never_silent_iff crossed_runnable idle_wellSized threeTimers).mpr
    (Or.inr (by decide))

/-- A motion of one timestep is over after its first tick: the third
timer event publishes nothing. -/
theorem silent_after_motion :
    idle.WellSized DataConverter.crossed.numDof
        DataConverter.crossed.numBodies
      ∧ ¬ NeverSilent idle (start DataConverter.crossed 0 1)
          threeTimers :=
  ⟨idle_wellSized, not_neverSilent crossed_runnable idle_wellSized
    (by decide) (by decide)⟩

end RLControllerNode

end RlDeploy
