/-
The joint test tool's interpolation, in exact arithmetic.

A joint that is driven to a target is published on the track from where
the motion found it to the target, at the time elapsed since the motion
started (`entry_track`). Messages in between do not enter. So on a clock
that does not go back the published positions are the track at growing
times (`run_driven`), and what holds of the track holds of them: they
stay between the two ends, they only move towards the target, and they
are at the target once the duration is over.

Such a clock also rules out the division by zero: before the end of the
duration some time of it is left, so it is positive
(`neverDivides_of_clock`).
-/
import RlDeploy.Tool.Proofs.History
import RlDeploy.Lib.Blend

namespace RlDeploy

open Lib

namespace JointCmdPublisher

-- ========================================================== the clock

/-- The clock readings of a motion do not go back. -/
def Motion.Forward {D : Type} (m : Motion D) : Prop :=
  (m.start :: m.nows).Pairwise (· ≤ ·)

theorem elapsed_eq (startTime now : Int) :
    (elapsed startTime now : ℚ) = (now - startTime) / 10 ^ 9 := by
  show ((now - startTime : Int) : ℚ) * (1 / 10 ^ 9) = _
  push_cast
  ring

/-- The elapsed time is not negative, and it grows with the clock. -/
theorem elapsed_nonneg {startTime now : Int} (h : startTime ≤ now) :
    (0 : ℚ) ≤ elapsed startTime now := by
  have h' : (startTime : ℚ) ≤ now := by exact_mod_cast h
  rw [elapsed_eq]
  apply div_nonneg
  · linarith
  · norm_num

theorem elapsed_mono (startTime : Int) {now now' : Int} (h : now ≤ now') :
    (elapsed startTime now : ℚ) ≤ elapsed startTime now' := by
  have h' : (now : ℚ) ≤ now' := by exact_mod_cast h
  rw [elapsed_eq, elapsed_eq]
  apply div_le_div_of_nonneg_right
  · linarith
  · norm_num

/-- On a clock that does not go back no tick divides by zero. -/
theorem neverDivides_of_clock {tool : JointCmdPublisher ℚ}
    {events : List (Event ℚ)}
    (h : ∀ m, motion events = some m → m.Forward) :
    NeverDivides tool events := by
  intro m hm now hnow
  rw [Bool.eq_false_iff]
  intro hd
  obtain ⟨-, -, hge, hzero⟩ := divides_iff.mp hd
  have hstart : m.start ≤ now := (List.pairwise_cons.mp (h m hm)).1 now hnow
  have hlt : ¬ tool.duration ≤ elapsed m.start now :=
    of_decide_eq_false hge
  have hz : tool.duration = 0 := of_decide_eq_true hzero
  apply hlt
  rw [hz]
  exact elapsed_nonneg hstart

-- ========================================================== the track

/-- A driven joint is published on the track to its target. -/
theorem entry_track {tool : JointCmdPublisher ℚ} (hz : tool.zero = false)
    (hh : tool.hold = false) (past : List (Event ℚ)) (m : Motion ℚ)
    (elapsed : ℚ) {n : String} {e : ℚ}
    (he : tool.targetMap[n]? = some e) :
    entry tool past m elapsed n
      = track ((lastReported m.before n).getD 0) e tool.duration
          elapsed := by
  unfold entry track
  rw [hz, hh, he]
  by_cases hd : tool.duration ≤ elapsed
  · have hge : PyFloat.ge elapsed tool.duration = true := decide_eq_true hd
    simp [hge, hd]
  · have hge : PyFloat.ge elapsed tool.duration = false :=
      decide_eq_false hd
    simp [hge, hd, smoothed, smoothstep, PyFloat.lit, PyFloat.quot]

-- ================================================== along a motion

/-- The track at the times of a motion. -/
def Motion.trackOf (m : Motion ℚ) (s e d : ℚ) : List ℚ :=
  m.nows.map fun now => track s e d (elapsed m.start now)

theorem Motion.Forward.start_le {m : Motion ℚ} (h : m.Forward) {now : Int}
    (hnow : now ∈ m.nows) : m.start ≤ now :=
  (List.pairwise_cons.mp h).1 now hnow

theorem Motion.Forward.between {m : Motion ℚ} (h : m.Forward)
    (s e d : ℚ) : ∀ p ∈ m.trackOf s e d, p ∈ Set.uIcc s e := by
  intro p hp
  obtain ⟨now, hnow, rfl⟩ := List.mem_map.mp hp
  exact track_mem s e d (elapsed_nonneg (h.start_le hnow))

/-- A relation that the track keeps from `0` on holds along the
motion. -/
theorem Motion.Forward.pairwise {m : Motion ℚ} (h : m.Forward)
    (s e d : ℚ) {R : ℚ → ℚ → Prop}
    (hR : ∀ t u, 0 ≤ t → t ≤ u → R (track s e d t) (track s e d u)) :
    (m.trackOf s e d).Pairwise R := by
  unfold Motion.trackOf
  rw [List.pairwise_map]
  apply (List.pairwise_cons.mp h).2.imp_of_mem
  intro now now' hnow _ hle
  apply hR
  · exact elapsed_nonneg (h.start_le hnow)
  · exact elapsed_mono m.start hle

section Run

variable (targetMap : StdMap ℚ) (duration : ℚ)

/-- The positions a run publishes for a driven joint: the track at the
times of its motion, and none before a motion has started. -/
theorem run_driven {i : Nat} {n : String} {e : ℚ}
    (hi : allJoints[i]? = some n) (he : targetMap[n]? = some e)
    (events : List (Event ℚ))
    (hnever : NeverDivides (init targetMap duration false false) events) :
    (run (init targetMap duration false false) events).log.map
        (fun cmd => cmd.position[i]?)
      = match motion events with
        | none => []
        | some m => (m.trackOf ((lastReported m.before n).getD 0) e
            duration).map some := by
  induction events using List.reverseRecOn with
  | nil => rfl
  | append_singleton past ev ih =>
      cases ev with
      | jointState name position =>
          rw [neverDivides_message] at hnever
          obtain ⟨s, hs⟩ := (run_returns_iff ..).mpr hnever
          rw [motion_message, ← ih hnever]
          unfold run at hs ⊢
          rw [Logged.run_snoc _ hs]
          simp [step]
      | tick a b =>
          rw [neverDivides_tick] at hnever
          obtain ⟨hpast, hd⟩ := hnever
          obtain ⟨s, hs⟩ := (run_returns_iff ..).mpr hpast
          have hf := run_follows hs
          unfold run at hs ih ⊢
          rw [Logged.run_snoc _ hs, List.map_append, ih hpast]
          cases hr : received past with
          | false =>
              have hm := motion_eq_none hr
              have hm' : motion (past ++ [.tick a b]) = none :=
                motion_eq_none (by rw [received_tick, hr])
              rw [step, hf.tick_wait hr, hm, hm']
              rfl
          | true =>
              obtain ⟨m, hm, -, htick⟩ := hf.tick_eq hr a b
              have hpos : (commandOf (allJoints.map
                  (entry (init targetMap duration false false) past m
                    (elapsed m.start b)))).position[i]?
                  = some (track ((lastReported m.before n).getD 0) e
                      duration (elapsed m.start b)) := by
                show (allJoints.map _)[i]? = _
                rw [List.getElem?_map, hi, Option.map_some,
                  entry_track rfl rfl past m _ he]
                rfl
              rw [step, htick, hd m hm, hm]
              simp only [Bool.false_eq_true, if_false, List.map_cons,
                List.map_nil, hpos]
              -- the tick goes on with a motion, or starts one
              rw [motion_tick, hr] at hm
              cases hpre : motion past with
              | none =>
                  rw [hpre] at hm
                  cases hm
                  rfl
              | some m₀ =>
                  rw [hpre] at hm
                  cases hm
                  simp [Motion.trackOf]

/-- On a clock that does not go back, the interpolation never divides by
zero, and every joint it drives is published between its start and its
target, moves towards the target alone, and is at the target once the
duration is over. -/
theorem interpolation_monotone {events : List (Event ℚ)} {m : Motion ℚ}
    (hm : motion events = some m)
    (hclock : (m.start :: m.nows).Pairwise (· ≤ ·)) {i : Nat}
    {n : String} {e : ℚ} (hi : allJoints[i]? = some n)
    (he : targetMap[n]? = some e) :
    (∃ s', (run (init targetMap duration false false) events).out
      = .ok s')
    ∧ ∃ ps : List ℚ,
      (run (init targetMap duration false false) events).log.map
          (fun cmd => cmd.position[i]?) = ps.map some
      ∧ ps.length = m.nows.length
      ∧ (∀ p ∈ ps,
        p ∈ Set.uIcc ((lastReported m.before n).getD 0) e)
      ∧ ((lastReported m.before n).getD 0 ≤ e → ps.Pairwise (· ≤ ·))
      ∧ (e ≤ (lastReported m.before n).getD 0 → ps.Pairwise (· ≥ ·))
      ∧ ∀ (k : Nat) (now : Int), m.nows[k]? = some now →
        duration ≤ elapsed m.start now → ps[k]? = some e := by
  have hforward : m.Forward := hclock
  have hnever : NeverDivides (init targetMap duration false false)
      events := by
    apply neverDivides_of_clock
    intro m' hm'
    rw [hm] at hm'
    cases hm'
    exact hforward
  refine ⟨(run_returns_iff ..).mpr hnever,
    m.trackOf ((lastReported m.before n).getD 0) e duration, ?_, ?_,
    hforward.between _ _ _, ?_, ?_, ?_⟩
  · rw [run_driven targetMap duration hi he events hnever, hm]
  · exact List.length_map _
  · intro hse
    apply hforward.pairwise
    intro t u ht htu
    exact track_monotoneOn hse duration ht (ht.trans htu) htu
  · intro hes
    apply hforward.pairwise
    intro t u ht htu
    exact track_antitoneOn hes duration ht (ht.trans htu) htu
  · intro k now hk hd
    unfold Motion.trackOf
    rw [List.getElem?_map, hk, Option.map_some, track_of_le hd]

end Run

/-- Two seconds of turning the waist from `1` to `3`, with a message on
the way. -/
def waistTurn : List (Event ℚ) :=
  [.tick 0 0, .jointState ["waist_yaw_joint"] [1], .tick 10 10,
    .jointState ["waist_yaw_joint"] [2], .tick 0 1000000010,
    .tick 0 3000000000]

theorem interpolation_monotone_waist :
    ∃ ps : List ℚ,
      (run (init ((∅ : StdMap ℚ).insert "waist_yaw_joint" 3) 2 false
        false) waistTurn).log.map (fun cmd => cmd.position[28]?)
        = ps.map some
      ∧ ps.length = 3 ∧ (∀ p ∈ ps, p ∈ Set.uIcc (1 : ℚ) 3)
      ∧ ps.Pairwise (· ≤ ·) ∧ ps[2]? = some 3 := by
  have hm : motion waistTurn = some
      ⟨[.tick 0 0, .jointState ["waist_yaw_joint"] [1]], 10,
        [10, 1000000010, 3000000000]⟩ := rfl
  have hclock : ([10, 10, 1000000010, 3000000000] : List Int).Pairwise
      (· ≤ ·) := by decide
  have hi : allJoints[28]? = some "waist_yaw_joint" := rfl
  have he : ((∅ : StdMap ℚ).insert "waist_yaw_joint" 3)[
      "waist_yaw_joint"]? = some 3 := rfl
  have hstart : (lastReported (D := ℚ) [.tick 0 0,
      .jointState ["waist_yaw_joint"] [1]] "waist_yaw_joint").getD 0
      = 1 := rfl
  obtain ⟨-, ps, hlog, hlen, hmem, hup, -, hend⟩ :=
    interpolation_monotone _ 2 hm hclock hi he
  rw [hstart] at hmem hup
  refine ⟨ps, hlog, hlen, hmem, hup (by norm_num), ?_⟩
  apply hend 2 3000000000 rfl
  rw [elapsed_eq]
  norm_num

end JointCmdPublisher

end RlDeploy
