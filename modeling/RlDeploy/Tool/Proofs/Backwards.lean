/-
How far the clock may run back under the joint test tool.

A command for a driven joint is its track at the time since the motion
started, whatever was published before. Nothing in the tool keeps that
time from being negative: a clock that is set back, or a simulated one
that starts again, makes it so. The track goes on before its start, and
turns there, so for a while it still lies between the two ends. The
commands stay there exactly as long as no reading is more than half a
duration before the start (`overshoots_iff`); beyond that the joint is
sent past its target.

A negative duration, which the command line accepts, is over at the
start. On a clock that is set back further than it is long the tool
interpolates after all, and then the limit is half of it more.
-/
import RlDeploy.Tool.Proofs.Interpolation

namespace RlDeploy

open Lib

namespace JointCmdPublisher

/-- A duration other than zero is never divided by when it is zero. -/
theorem neverDivides_of_duration {tool : JointCmdPublisher ℚ}
    (hd : tool.duration ≠ 0) (events : List (Event ℚ)) :
    NeverDivides tool events := by
  intro m _ now _
  rw [Bool.eq_false_iff]
  intro hdiv
  obtain ⟨-, -, -, hzero⟩ := divides_iff.mp hdiv
  exact hd (of_decide_eq_true hzero)

/-- On every clock: a driven joint's commands all lie between the
position the motion found it at and its target if and only if every
reading is late enough. -/
theorem overshoots_iff (targetMap : StdMap ℚ) {duration : ℚ}
    (hd : duration ≠ 0) {events : List (Event ℚ)} {m : Motion ℚ}
    (hm : motion events = some m) {i : Nat} {n : String} {s e : ℚ}
    (hi : allJoints[i]? = some n) (he : targetMap[n]? = some e)
    (hs : (lastReported m.before n).getD 0 = s) (hse : s ≠ e) :
    (∀ cmd ∈ (run (init targetMap duration false false) events).log,
        ∀ p, cmd.position[i]? = some p → p ∈ Set.uIcc s e)
      ↔ ∀ now ∈ m.nows,
        min (-(duration / 2)) (3 / 2 * duration)
          ≤ elapsed m.start now := by
  have hnever : NeverDivides (init targetMap duration false false)
      events := neverDivides_of_duration hd events
  have hrun := run_driven targetMap duration hi he events hnever
  rw [hm] at hrun
  dsimp only at hrun
  rw [hs] at hrun
  -- the positions of the joint are the track at the readings
  have hlog : (∀ cmd ∈ (run (init targetMap duration false false)
        events).log, ∀ p, cmd.position[i]? = some p → p ∈ Set.uIcc s e)
      ↔ ∀ p ∈ m.trackOf s e duration, p ∈ Set.uIcc s e := by
    constructor
    · intro h p hp
      have hmem := List.mem_map_of_mem (f := some) hp
      rw [← hrun] at hmem
      obtain ⟨cmd, hcmd, hpos⟩ := List.mem_map.mp hmem
      exact h cmd hcmd p hpos
    · intro h cmd hcmd p hp
      have hmem := List.mem_map_of_mem
        (f := fun cmd : JointState ℚ => cmd.position[i]?) hcmd
      rw [hrun] at hmem
      obtain ⟨p', hp', heq⟩ := List.mem_map.mp hmem
      have hval := Option.some.inj (heq.trans hp)
      rw [← hval]
      exact h p' hp'
  rw [hlog]
  unfold Motion.trackOf
  rw [List.forall_mem_map]
  constructor
  · intro h now hnow
    exact (track_mem_iff hse hd).mp (h now hnow)
  · intro h now hnow
    exact (track_mem_iff hse hd).mpr (h now hnow)

/-- Two seconds from `1` to `3`, on a clock that is set back by a second
and a half: the waist is sent past its target. -/
def setBack : List (Event ℚ) :=
  [.jointState ["waist_yaw_joint"] [1], .tick 2000000000 2000000000,
    .tick 0 500000000]

theorem overshoots_setBack :
    ¬ ∀ cmd ∈ (run (init ((∅ : StdMap ℚ).insert "waist_yaw_joint" 3) 2
        false false) setBack).log,
      ∀ p, cmd.position[28]? = some p → p ∈ Set.uIcc (1 : ℚ) 3 := by
  have hm : motion setBack = some
      ⟨[.jointState ["waist_yaw_joint"] [1]], 2000000000,
        [2000000000, 500000000]⟩ := rfl
  have hi : allJoints[28]? = some "waist_yaw_joint" := rfl
  have he : ((∅ : StdMap ℚ).insert "waist_yaw_joint" 3)[
      "waist_yaw_joint"]? = some 3 := rfl
  have hs : (lastReported (D := ℚ)
      [.jointState ["waist_yaw_joint"] [1]] "waist_yaw_joint").getD 0
      = 1 := rfl
  intro h
  have hlate := (overshoots_iff _ two_ne_zero hm hi he hs
    (by norm_num)).mp h 500000000 (by simp)
  rw [elapsed_eq] at hlate
  norm_num at hlate

end JointCmdPublisher

end RlDeploy
