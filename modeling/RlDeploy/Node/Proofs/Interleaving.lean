/-
The order of the callbacks between two timer events does not matter.

The two sensor callbacks write what the timer callback reads, and do
nothing else. So the node is a system that latches its inputs
(`Lib.Latch`): its snapshots are the last joint state and the last IMU
message at each timer event, and everything it does follows from them. A
message that is overwritten before the next timer event leaves no trace,
and it makes no difference which of the two topics came first.

No assumption on the configuration or the model is needed, and runs that
stop with a fault are included.
-/
import RlDeploy.Lib.Latch
import RlDeploy.Node.Proofs.Steady

namespace RlDeploy

open Lib

variable {F D : Type} [Scalar F D] [Eigen F]

/-- The last message of each topic. -/
structure Inputs (D : Type) where
  jointState : Option (JointState D) := none
  imu : Option (Imu D) := none
  deriving DecidableEq

/-- What an event does: a sensor callback writes an input, the timer
callback acts. -/
def Event.split : Event D → (Inputs D → Inputs D) ⊕ Unit
  | .jointState msg => .inl fun i => { i with jointState := some msg }
  | .imu msg => .inl fun i => { i with imu := some msg }
  | .timer => .inr ()

namespace RLControllerNode

omit [Scalar F D] [Eigen F] in
/-- The last messages at each timer event of a run. -/
def snapshots (evs : List (Event D)) : List (Inputs D × Unit) :=
  Latch.snapshots Event.split {} evs

omit [Scalar F D] [Eigen F] in
/-- The node with the given messages received last. -/
def load (i : Inputs D) (n : RLControllerNode F D) :
    RLControllerNode F D :=
  { n with
    latestJointState := i.jointState.getD n.latestJointState
    jointReceived := i.jointState.isSome
    latestImu := i.imu.getD n.latestImu
    imuReceived := i.imu.isSome }

omit [Scalar F D] [Eigen F] in
/-- Two nodes that differ in the received messages only. -/
structure SameProgress (n n' : RLControllerNode F D) : Prop where
  converter : n.converter = n'.converter
  initialized : n.initialized = n'.initialized
  timestep : n.timestep = n'.timestep
  playSpeed : n.playSpeed = n'.playSpeed
  flagMotionDone : n.flagMotionDone = n'.flagMotionDone

variable {net : Policy F} {n n' t : RLControllerNode F D} {i : Inputs D}

omit [Scalar F D] [Eigen F] in
/-- A node that has kept the loaded inputs is still loaded with them. -/
theorem SameInputs.load (h : n.SameInputs (t.load i)) : n = n.load i := by
  have hj : n.latestJointState
      = i.jointState.getD n.latestJointState := by
    have hkept := h.latestJointState
    cases hi : i.jointState with
    | none => rfl
    | some msg =>
        rw [hkept, RLControllerNode.load, hi]
        rfl
  have him : n.latestImu = i.imu.getD n.latestImu := by
    have hkept := h.latestImu
    cases hi : i.imu with
    | none => rfl
    | some msg =>
        rw [hkept, RLControllerNode.load, hi]
        rfl
  have hjr : n.jointReceived = i.jointState.isSome := h.jointReceived
  have hir : n.imuReceived = i.imu.isSome := h.imuReceived
  unfold RLControllerNode.load
  rw [← hj, ← him, ← hjr, ← hir]

/-- A sensor callback loads its message. -/
theorem step_write {e : Event D} {f : Inputs D → Inputs D}
    (h : e.split = .inl f) :
    step net (t.load i) e = ⟨[], .ok (t.load (f i))⟩ := by
  cases e with
  | jointState msg =>
      cases h
      rfl
  | imu msg =>
      cases h
      rfl
  | timer => cases h

/-- The node as a machine that is handed the last messages with each
timer event. -/
def handed (net : Policy F) (n : RLControllerNode F D)
    (p : Inputs D × Unit) : Logged (Act F D) Fault (RLControllerNode F D) :=
  (n.load p.1).timerCallback net

/-- The timer callback leaves the node loaded as it was. -/
theorem step_act (net : Policy F) (t : RLControllerNode F D)
    (i : Inputs D) :
    Logged.Alike (fun n t' => n = t'.load i)
      (step net (t.load i) .timer) (handed net t (i, ())) := by
  unfold handed step
  refine ⟨rfl, ?_⟩
  cases hout : ((t.load i).timerCallback net).out with
  | error e => exact Or.inl ⟨e, rfl, rfl⟩
  | ok n =>
      have hkept := (timerStep_of_ok hout).sameInputs
      exact Or.inr ⟨n, n, rfl, rfl, hkept.load⟩

/-- Whatever the configuration, the model and the run: two event lists
with the same last messages at each timer event have the same calls of
the network, the same published commands in the same order and the same
end, a fault or a node in the same place. -/
theorem same_snapshots (net : Policy F) (cfg : BeyondMimicConfig F)
    (s m : Int) {evs evs' : List (Event D)}
    (h : snapshots evs = snapshots evs') :
    (run net (start cfg s m) evs).log = (run net (start cfg s m) evs').log
      ∧ ((∃ e, (run net (start cfg s m) evs).out = .error e
          ∧ (run net (start cfg s m) evs').out = .error e)
        ∨ ∃ n n', (run net (start cfg s m) evs).out = .ok n
          ∧ (run net (start cfg s m) evs').out = .ok n'
          ∧ SameProgress n n') := by
  have hstart : start cfg s m = (start cfg s m).load ({} : Inputs D) := rfl
  have hwrite : ∀ (i : Inputs D) (n t : RLControllerNode F D)
      (e : Event D) (f : Inputs D → Inputs D), n = t.load i →
      e.split = .inl f →
      ∃ n', step net n e = ⟨[], .ok n'⟩ ∧ n' = t.load (f i) := by
    rintro i n t e f rfl he
    exact ⟨t.load (f i), step_write he, rfl⟩
  have hact : ∀ (i : Inputs D) (n t : RLControllerNode F D)
      (e : Event D) (k : Unit), n = t.load i → e.split = .inr k →
      Logged.Alike (fun n t' => n = t'.load i) (step net n e)
        (handed net t (i, k)) := by
    rintro i n t e k rfl he
    cases e with
    | jointState msg => cases he
    | imu msg => cases he
    | timer => exact step_act net t i
  obtain ⟨hlog, hout⟩ := Latch.run_same_snapshots
    hwrite hact hstart h
  refine ⟨hlog, ?_⟩
  rcases hout with herr | ⟨n, n', hn, hn', t, rfl, rfl⟩
  · exact Or.inl herr
  · exact Or.inr ⟨_, _, hn, hn', rfl, rfl, rfl, rfl, rfl⟩

/-- Two ready timer events, with the topics in the other order and with
a message that is overwritten in time. -/
def twoReadySwapped : List (Event ℚ) :=
  [.imu ⟨⟨1, 0, 0, 0⟩, ⟨0, 0, 0⟩⟩, .jointState ⟨["hip"], [1], [], []⟩,
    .jointState {}, .timer, .timer]

theorem same_snapshots_swapped :
    twoReadySwapped ≠ twoReady
      ∧ (run (Policy.ofFun 19 fun _ _ => fullResult)
          (start DataConverter.crossed 3 4) twoReadySwapped).log
        = (run (Policy.ofFun 19 fun _ _ => fullResult)
          (start DataConverter.crossed 3 4) twoReady).log := by
  have hsnap : snapshots twoReadySwapped = snapshots twoReady := rfl
  have hlen : twoReadySwapped.length ≠ twoReady.length := by decide
  exact ⟨fun h => hlen (congrArg List.length h),
    (same_snapshots _ _ _ _ hsnap).1⟩

end RLControllerNode

end RlDeploy
