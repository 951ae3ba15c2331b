/-
Only differences of timesteps matter to the node.

Start it `d` timesteps later, with the end of the motion `d` timesteps
later and a model whose motion is `d` timesteps late: the node does the
same, callback by callback, and asks for timesteps that are `d` later.
This holds for every configuration, every model and every run, those that
stop with a fault included. Whether `max_timestep` ends the motion at all
is decided by its sign, so the two values must agree in that.
-/
import RlDeploy.Node.Proofs.Image
import RlDeploy.Node.Proofs.Steady

namespace RlDeploy

open Lib

variable {F D : Type} [Scalar F D] [Eigen F]

/-- The model whose motion is `d` timesteps late. -/
def Policy.delayed (net : Policy F) (d : Int) : Policy F where
  obsSize := net.obsSize
  infer obs t := net.infer obs (t - d)

omit [Scalar F D] [Eigen F] in
/-- The action `d` timesteps later. -/
def Act.delayed (d : Int) : Act F D → Act F D
  | .infer obs t => .infer obs (t + d)
  | .process actions => .process actions
  | .publish cmd => .publish cmd

namespace RLControllerNode

omit [Scalar F D] [Eigen F] in
/-- The node `d` timesteps later. -/
def delayed (d : Int) (n : RLControllerNode F D) :
    RLControllerNode F D :=
  { n with
    timestep := n.timestep + d
    maxTimestep := n.maxTimestep + d
    startTimestep := n.startTimestep + d }

omit [Scalar F D] [Eigen F] in
/-- Two nodes `d` timesteps apart, of which both or none has an end. -/
structure Apart (d : Int) (n n' : RLControllerNode F D) : Prop where
  same : n' = n.delayed d
  ends : 0 < n.maxTimestep ↔ 0 < n.maxTimestep + d

variable {net : Policy F} {d : Int} {n n' : RLControllerNode F D}

omit [Scalar F D] [Eigen F] in
/-- The end of a tick, `d` timesteps later. -/
theorem advance_delayed (h : 0 < n.maxTimestep ↔ 0 < n.maxTimestep + d) :
    Apart d (advance n) (advance (n.delayed d)) := by
  have hlate : n.timestep + d + truncate n.playSpeed
      = n.timestep + truncate n.playSpeed + d := by omega
  unfold advance delayed
  dsimp only
  rw [hlate]
  by_cases hend : 0 < n.maxTimestep
      ∧ n.maxTimestep ≤ n.timestep + truncate n.playSpeed
  · have hend' : 0 < n.maxTimestep + d
        ∧ n.maxTimestep + d ≤ n.timestep + truncate n.playSpeed + d :=
      ⟨h.mp hend.1, by omega⟩
    rw [if_pos hend, if_pos hend']
    exact ⟨rfl, h⟩
  · have hend' : ¬ (0 < n.maxTimestep + d
        ∧ n.maxTimestep + d ≤ n.timestep + truncate n.playSpeed + d) :=
      fun hc => hend ⟨h.mpr hc.1, by omega⟩
    rw [if_neg hend, if_neg hend']
    exact ⟨rfl, h⟩

omit [Scalar F D] [Eigen F] in
theorem infer_delayed (net : Policy F) (d : Int) (obs : List F)
    (t : Int) : (net.delayed d).infer obs (t + d) = net.infer obs t := by
  show net.infer obs (t + d - d) = _
  rw [Int.add_sub_cancel]

theorem initializeMotion_delayed
    (h : 0 < n.maxTimestep ↔ 0 < n.maxTimestep + d) :
    Logged.Image (Act.delayed d) (Apart d) (initializeMotion net n)
      (initializeMotion (net.delayed d) (n.delayed d)) := by
  unfold initializeMotion
  refine (Logged.Image.emit (Act.delayed d)
    (Act.infer (List.replicate net.obsSize 0) n.timestep)).bind
    fun _ _ _ => ?_
  show Logged.Image _ _ (Logged.lift (net.infer _ n.timestep) >>= _)
    (Logged.lift ((net.delayed d).infer _ (n.timestep + d)) >>= _)
  rw [infer_delayed]
  refine (Logged.Image.same _ _).bind ?_
  rintro r _ rfl
  refine (Logged.Image.same _ (initMotion n.converter r)).bind ?_
  rintro dc₁ _ rfl
  refine (Logged.Image.emit (Act.delayed d) (Act.process r.actions)).bind
    fun _ _ _ => ?_
  refine (Logged.Image.same _ (dc₁.processAction r.actions)).bind ?_
  rintro p _ rfl
  exact Logged.Image.pure ⟨rfl, h⟩

theorem controlTick_delayed
    (h : 0 < n.maxTimestep ↔ 0 < n.maxTimestep + d) :
    Logged.Image (Act.delayed d) (Apart d) (controlTick net n)
      (controlTick (net.delayed d) (n.delayed d)) := by
  unfold controlTick
  refine (Logged.Image.same _ (n.converter.buildObservation
    n.latestImu.angularVelocity.narrow n.latestImu.orientation.narrow
    n.latestJointState.name n.latestJointState.position
    n.latestJointState.velocity)).bind ?_
  rintro obs _ rfl
  refine (Logged.Image.emit (Act.delayed d)
    (Act.infer obs n.timestep)).bind fun _ _ _ => ?_
  show Logged.Image _ _ (Logged.lift (net.infer _ n.timestep) >>= _)
    (Logged.lift ((net.delayed d).infer _ (n.timestep + d)) >>= _)
  rw [infer_delayed]
  refine (Logged.Image.same _ _).bind ?_
  rintro r _ rfl
  refine (Logged.Image.emit (Act.delayed d) (Act.process r.actions)).bind
    fun _ _ _ => ?_
  refine (Logged.Image.same _
    ((updateMotion n.converter r).processAction r.actions)).bind ?_
  rintro ⟨dc₂, scaled⟩ _ rfl
  refine (Logged.Image.same _ (dc₂.computePdTarget scaled)).bind ?_
  rintro target _ rfl
  refine (Logged.Image.emit (Act.delayed d)
    (Act.publish (dc₂.actionToJointCmd target))).bind fun _ _ _ => ?_
  exact Logged.Image.pure
    (advance_delayed (n := { n with converter := dc₂ }) h)

/-- One callback, `d` timesteps later. -/
theorem step_delayed (h : Apart d n n') (e : Event D) :
    Logged.Image (Act.delayed d) (Apart d) (step net n e)
      (step (net.delayed d) n' e) := by
  obtain ⟨rfl, h⟩ := h
  cases e with
  | jointState msg => exact Logged.Image.pure ⟨rfl, h⟩
  | imu msg => exact Logged.Image.pure ⟨rfl, h⟩
  | timer =>
      show Logged.Image _ _ (n.timerCallback net)
        ((n.delayed d).timerCallback (net.delayed d))
      exact image_timer ⟨rfl, rfl, rfl, rfl⟩ ⟨rfl, h⟩
        (initializeMotion_delayed h) (controlTick_delayed h)

/-- A node that starts and ends `d` timesteps later, with a model whose
motion is `d` timesteps late: on every run its log is the other's with
every call of the model `d` timesteps later, so it publishes the same
commands, and it ends in the same fault or in the same node `d` timesteps
later. -/
theorem shift_invariant (net : Policy F) (cfg : BeyondMimicConfig F)
    {s m d : Int} (h : 0 < m ↔ 0 < m + d) (evs : List (Event D)) :
    (run (net.delayed d) (start cfg (s + d) (m + d)) evs).log
        = (run net (start cfg s m) evs).log.map (Act.delayed d)
      ∧ published (run (net.delayed d) (start cfg (s + d) (m + d)) evs).log
        = published (run net (start cfg s m) evs).log
      ∧ ((∃ e, (run net (start cfg s m) evs).out = .error e
          ∧ (run (net.delayed d) (start cfg (s + d) (m + d)) evs).out
            = .error e)
        ∨ ∃ n, (run net (start cfg s m) evs).out = .ok n
          ∧ (run (net.delayed d) (start cfg (s + d) (m + d)) evs).out
            = .ok (n.delayed d)) := by
  obtain ⟨hlog, hout⟩ := Logged.run_image (step net)
    (step (net.delayed d)) (Act.delayed d) (Apart d) Eq
    (by
      rintro n n' e _ hn rfl
      exact step_delayed hn e)
    (s := start cfg s m) (t := start cfg (s + d) (m + d))
    ⟨rfl, h⟩ (List.forall₂_refl evs)
  refine ⟨hlog, ?_, ?_⟩
  · rw [run, hlog, published_map (h := id) (fun _ => rfl)
      (fun _ _ => ⟨_, _, rfl⟩) (fun _ => ⟨_, rfl⟩), List.map_id]
    rfl
  · rcases hout with herr | ⟨n, n', hn, hn', hapart⟩
    · exact Or.inl herr
    · refine Or.inr ⟨n, hn, ?_⟩
      rw [← hapart.same]
      exact hn'

/-- A model that answers by the timestep. -/
def stepwise : Policy ℚ :=
  Policy.ofFun 19 fun _ t => { fullResult with actions := [t, 0] }

theorem shift_invariant_crossed :
    published (run (stepwise.delayed 2) (start DataConverter.crossed 5 6)
        twoReady).log
      = published (run stepwise (start DataConverter.crossed 3 4)
        twoReady).log :=
  (shift_invariant stepwise DataConverter.crossed (s := 3) (m := 4)
    (d := 2) (by decide) twoReady).2.1

end RLControllerNode

end RlDeploy
