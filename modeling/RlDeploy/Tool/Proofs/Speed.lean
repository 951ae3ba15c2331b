/-
How fast the joint test tool moves a joint, in exact arithmetic.

The commands for a driven joint are its track, read at the clock of the
motion (`run_driven`). The track is nowhere steeper than one and a half
times the mean speed, so this bounds the distance between any two
commands by the time between them, and the distance of a command from
the position the motion found the joint at by the time since its start:
there is no jump at the start, and none at the end of the duration,
however few ticks fall on the way.

Without a positive duration there is no such bound: the first tick
commands the target.
-/
import RlDeploy.Tool.Proofs.Interpolation

namespace RlDeploy

open Lib

namespace JointCmdPublisher

/-- A joint's positions with the clock readings they belong to, the
start of the motion first. -/
def Motion.timed (m : Motion ℚ) (s : ℚ) (ps : List ℚ) :
    List (Int × ℚ) :=
  (m.start, s) :: m.nows.zip ps

theorem elapsed_sub (startTime now now' : Int) :
    (elapsed startTime now' : ℚ) - elapsed startTime now
      = elapsed now now' := by
  rw [elapsed_eq, elapsed_eq, elapsed_eq]
  ring

theorem elapsed_self (startTime : Int) :
    (elapsed startTime startTime : ℚ) = 0 := by
  rw [elapsed_eq, sub_self, zero_div]

/-- The track of a motion with its readings is the track at these. -/
theorem Motion.timed_track (m : Motion ℚ) {s e d : ℚ} (hd : 0 < d) :
    m.timed s (m.trackOf s e d)
      = (m.start :: m.nows).map fun now =>
        (now, track s e d (elapsed m.start now)) := by
  have hstart : track s e d 0 = s := by
    rw [track_eq_blend s e hd, zero_div, min_eq_left zero_le_one,
      smoothstep_zero, mul_zero, add_zero]
  unfold Motion.timed Motion.trackOf
  rw [List.map_cons, elapsed_self, hstart, List.zip_map_right]
  congr 1
  induction m.nows with
  | nil => rfl
  | cons now nows ih =>
      rw [List.zip_cons_cons, List.map_cons, List.map_cons, ih]
      rfl

/-- A driven joint is never moved faster than one and a half times its
mean speed: of every two of its commands, and of its start and every
command, the distance is at most that speed for the time between. -/
theorem speed_limited (targetMap : StdMap ℚ) {duration : ℚ}
    (hd : 0 < duration) {events : List (Event ℚ)} {m : Motion ℚ}
    (hm : motion events = some m)
    (hclock : (m.start :: m.nows).Pairwise (· ≤ ·)) {i : Nat}
    {n : String} {s e : ℚ} (hi : allJoints[i]? = some n)
    (he : targetMap[n]? = some e)
    (hs : (lastReported m.before n).getD 0 = s) :
    ∃ ps : List ℚ,
      (run (init targetMap duration false false) events).log.map
          (fun cmd => cmd.position[i]?) = ps.map some
      ∧ ps.length = m.nows.length
      ∧ (m.timed s ps).Pairwise fun a b =>
        |b.2 - a.2| ≤ 3 / 2 * (|e - s| / duration)
          * elapsed a.1 b.1 := by
  have hforward : m.Forward := hclock
  have hnever : NeverDivides (init targetMap duration false false)
      events := by
    apply neverDivides_of_clock
    intro m' hm'
    rw [hm] at hm'
    cases hm'
    exact hforward
  have hpeak : peakSlope ℚ = 3 / 2 := by
    unfold peakSlope
    norm_num
  refine ⟨m.trackOf s e duration, ?_, List.length_map _, ?_⟩
  · rw [run_driven targetMap duration hi he events hnever, hm, ← hs]
  · rw [m.timed_track hd, List.pairwise_map]
    apply hclock.imp_of_mem
    intro now now' hnow _ hle
    have hstart : m.start ≤ now := by
      rcases List.mem_cons.mp hnow with rfl | hnow
      · exact le_rfl
      · exact hforward.start_le hnow
    rw [← hpeak, ← elapsed_sub m.start now now']
    exact abs_track_sub_le s e hd (elapsed_nonneg hstart)
      (elapsed_mono m.start hle)

/-- Two seconds of turning the waist by `2`: no faster than `3 / 2`. -/
theorem speed_limited_waist :
    ∃ ps : List ℚ,
      (run (init ((∅ : StdMap ℚ).insert "waist_yaw_joint" 3) 2 false
        false) waistTurn).log.map (fun cmd => cmd.position[28]?)
        = ps.map some
      ∧ ps.length = 3
      ∧ (((10, 1) :: [10, 1000000010, 3000000000].zip ps :
          List (Int × ℚ))).Pairwise
        fun a b => |b.2 - a.2| ≤ 3 / 2 * (|3 - 1| / 2)
          * elapsed a.1 b.1 := by
  have hm : motion waistTurn = some
      ⟨[.tick 0 0, .jointState ["waist_yaw_joint"] [1]], 10,
        [10, 1000000010, 3000000000]⟩ := rfl
  have hi : allJoints[28]? = some "waist_yaw_joint" := rfl
  have he : ((∅ : StdMap ℚ).insert "waist_yaw_joint" 3)[
      "waist_yaw_joint"]? = some 3 := rfl
  have hs : (lastReported (D := ℚ) [.tick 0 0,
      .jointState ["waist_yaw_joint"] [1]] "waist_yaw_joint").getD 0
      = 1 := rfl
  exact speed_limited _ two_pos hm (by decide) hi he hs

end JointCmdPublisher

end RlDeploy
