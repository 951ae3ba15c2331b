/-
The joint test tool refines the machine over snapshots.

`run_plan` is the refinement: on every list of callbacks, in every mode,
the tool publishes what the machine of its plan publishes on the views of
the run, and raises where the machine does. The simulation is carried by
what a history says of the state (`Follows`): the view of a tick is what
was last reported, and the machine's motion is the motion of the history.

A view and a plan hold known joints alone, and whether any message has
come, so what else messages and targets mention is never published
(`known_joints_only`), and how the reports were put into messages, whole
or in parts, once or repeatedly and in which order, does not matter as
long as a tick finds the same.
-/
import RlDeploy.Tool.Plan

namespace RlDeploy

open Lib

namespace JointCmdPublisher

variable {D : Type} [PyFloat D]

-- =========================================================== the views

/-- What a history has reported. -/
def reported (past : List (Event D)) : Reported D where
  received := received past
  known := allJoints.map (lastReported past)

/-- The motion of a history, as the machine keeps it. -/
def started (past : List (Event D)) : Option (Int × List D) :=
  (motion past).map fun m =>
    (m.start, allJoints.map fun n =>
      (lastReported m.before n).getD (PyFloat.lit 0))

omit [PyFloat D] in
theorem reported_message (past : List (Event D)) (name : List String)
    (position : List D) :
    reported (past ++ [.jointState name position])
      = { received := true
          known := List.zipWith
            (fun n old => ((name.zip position).reverse.lookup n).or old)
            allJoints (reported past).known } := by
  have hlast : ∀ n, lastReported (past ++ [.jointState name position]) n
      = ((name.zip position).reverse.lookup n).or
        (lastReported past n) := by
    intro n
    unfold lastReported
    rw [reports_message, List.reverse_append, List.lookup_append]
  unfold reported
  rw [received_message, List.zipWith_map_right, List.zipWith_self,
    funext hlast]

omit [PyFloat D] in
theorem reported_tick (past : List (Event D)) (a b : Int) :
    reported (past ++ [.tick a b]) = reported past := by
  unfold reported
  rw [received_tick, funext (lastReported_tick past a b)]

-- ============================================================ one tick

/-- The positions of the plan are the entries of the history. -/
theorem plan_positions (tool : JointCmdPublisher D)
    (past : List (Event D)) (m : Motion D) (elapsed : D) :
    (plan tool).positions
        (allJoints.map fun n =>
          (lastReported m.before n).getD (PyFloat.lit 0))
        (allJoints.map fun n =>
          (lastReported past n).getD (PyFloat.lit 0)) elapsed
      = if divides tool elapsed then .error .zeroDivision
        else .ok (allJoints.map (entry tool past m elapsed)) := by
  unfold Plan.positions divides pyDiv plan
  dsimp only
  by_cases hz : tool.zero = true
  · simp only [hz, if_true, Bool.not_true, Bool.false_and,
      Bool.false_eq_true, if_false, List.map_map]
    congr 1
    apply List.map_congr_left
    intro n _
    simp [entry, hz]
  by_cases hh : tool.hold = true
  · simp only [hz, hh, if_true, Bool.not_true, Bool.false_and,
      Bool.and_false, Bool.false_eq_true, if_false]
    congr 1
    apply List.map_congr_left
    intro n _
    simp [entry, hz, hh]
  by_cases hg : PyFloat.ge elapsed tool.duration = true
  · simp only [hz, hh, hg, if_true, Bool.not_true, Bool.and_false,
      Bool.false_and, Bool.false_eq_true, if_false,
      List.zipWith_map, List.zipWith_self]
    congr 1
    apply List.map_congr_left
    intro n _
    unfold entry
    simp only [hz, hh, hg, if_true, Bool.false_eq_true, if_false]
    cases tool.targetMap[n]? <;> rfl
  by_cases hd : PyFloat.isZero tool.duration = true
  · simp [hz, hh, hg, hd]
  · simp only [hz, hh, hg, hd, Bool.not_false, Bool.and_false,
      Bool.false_eq_true, if_false, ok_bind, List.zip_map',
      List.zipWith_map, List.zipWith_self]
    congr 1
    apply List.map_congr_left
    intro n _
    unfold entry
    simp only [hz, hh, hg, Bool.false_eq_true, if_false]
    cases tool.targetMap[n]? <;> rfl

/-- The tool after a history, beside the machine and its view. -/
structure Refines (tool : JointCmdPublisher D) (i : Reported D)
    (s : JointCmdPublisher D) (t : Option (Int × List D)) : Prop where
  history : ∃ past, Follows tool past s ∧ i = reported past
    ∧ t = started past

theorem Refines.message {tool s : JointCmdPublisher D} {i : Reported D}
    {t : Option (Int × List D)} (h : Refines tool i s t)
    (name : List String) (position : List D) {f : Reported D → Reported D}
    (hf : split (.jointState name position) = .inl f) :
    Refines tool (f i) (s.jsCb name position) t := by
  obtain ⟨past, hs, rfl, rfl⟩ := h.history
  cases hf
  refine ⟨past ++ [.jointState name position], hs.jsCb name position,
    ?_, ?_⟩
  · rw [reported_message]
  · unfold started
    rw [motion_message]

/-- One tick of each. -/
theorem Refines.tick {tool s : JointCmdPublisher D} {i : Reported D}
    {t : Option (Int × List D)} (h : Refines tool i s t) (a b : Int) :
    Logged.Alike (Refines tool i) (s.tick a b)
      ((plan tool).act t (i, a, b)) := by
  obtain ⟨past, hs, rfl, rfl⟩ := h.history
  unfold Plan.act
  cases hr : received past with
  | false =>
      have hw : (reported past).received = false := hr
      rw [hs.tick_wait hr, hw]
      refine Logged.Alike.pure ⟨past ++ [.tick a b], hs.wait hr a b, ?_, ?_⟩
      · rw [reported_tick]
      · unfold started
        rw [motion_eq_none hr, motion_eq_none (by rw [received_tick, hr])]
  | true =>
      have hw : (reported past).received = true := hr
      obtain ⟨m, hm, -, htick⟩ := hs.tick_eq hr a b
      have hheld : (reported past).known.map
          (fun v => v.getD (PyFloat.lit 0))
          = allJoints.map fun n =>
            (lastReported past n).getD (PyFloat.lit 0) := by
        unfold reported
        rw [List.map_map]
        rfl
      -- the motion goes on, or starts here
      have hmotion : (started past).getD (a, allJoints.map fun n =>
            (lastReported past n).getD (PyFloat.lit 0))
          = (m.start, allJoints.map fun n =>
            (lastReported m.before n).getD (PyFloat.lit 0)) := by
        unfold started
        rw [motion_tick, hr] at hm
        cases hpre : motion past with
        | none =>
            rw [hpre] at hm
            cases hm
            rfl
        | some m₀ =>
            rw [hpre] at hm
            cases hm
            rfl
      rw [hw]
      simp only [Bool.not_true, Bool.false_eq_true, if_false, hheld,
        hmotion, plan_positions]
      rw [htick]
      cases hd : divides tool (elapsed m.start b) with
      | true =>
          simp only [if_true]
          exact ⟨rfl, Or.inl ⟨_, rfl, rfl⟩⟩
      | false =>
          simp only [Bool.false_eq_true, if_false]
          refine ⟨rfl, Or.inr ⟨_, _, rfl, rfl, past ++ [.tick a b], ?_,
            ?_, ?_⟩⟩
          · exact (hs.start hr a b).reach _
          · rw [reported_tick]
          · unfold started
            rw [hm]
            rfl

-- ============================================================= the run

/-- The tool refines the machine of its plan. -/
theorem run_plan (targetMap : StdMap D) (duration : D) (hold zero : Bool)
    (events : List (Event D)) :
    Logged.Alike
      (Refines (init targetMap duration hold zero)
        (Latch.latched split unreported events))
      (run (init targetMap duration hold zero) events)
      ((plan (init targetMap duration hold zero)).run (views events)) := by
  refine Latch.run_latched (Refines (init targetMap duration hold zero))
    ?_ ?_ ?_
  · intro i s t e f h he
    cases e with
    | jointState name position =>
        exact ⟨_, rfl, h.message name position he⟩
    | tick a b => cases he
  · intro i s t e k h he
    cases e with
    | jointState name position => cases he
    | tick a b =>
        cases he
        exact h.tick a b
  · exact ⟨[], init_follows targetMap duration hold zero, rfl, rfl⟩

/-- Two runs of the tool whose ticks find the same reports on the known
joints at the same times, and alike whether any message has come, for
targets that agree on the known joints, publish the same commands, and
both go on or both divide by zero: targets for other joints are never
commanded, and of reports on other joints no more is seen than that a
message has come, and nothing of the way the reports were put into
messages. -/
theorem known_joints_only {targetMap targetMap' : StdMap D}
    (htarget : ∀ n ∈ allJoints, targetMap[n]? = targetMap'[n]?)
    (duration : D) (hold zero : Bool) {events events' : List (Event D)}
    (hviews : views events = views events') :
    (run (init targetMap duration hold zero) events).log
        = (run (init targetMap' duration hold zero) events').log
      ∧ ((∃ s, (run (init targetMap duration hold zero) events).out
          = .ok s)
        ↔ ∃ s', (run (init targetMap' duration hold zero) events').out
          = .ok s') := by
  have hplan : plan (init targetMap duration hold zero)
      = plan (init targetMap' duration hold zero) := by
    have htargets : allJoints.map (targetMap[·]?)
        = allJoints.map (targetMap'[·]?) :=
      List.map_congr_left htarget
    unfold plan init
    rw [htargets]
  have h := run_plan targetMap duration hold zero events
  have h' := run_plan targetMap' duration hold zero events'
  rw [← hplan, ← hviews] at h'
  refine ⟨h.log.trans h'.log.symm, ?_⟩
  rcases h.out with ⟨e, hs, ht⟩ | ⟨s, t, hs, ht, -⟩
  · rcases h'.out with ⟨e', hs', -⟩ | ⟨s', t', -, ht', -⟩
    · rw [hs, hs']
    · rw [ht] at ht'
      cases ht'
  · rcases h'.out with ⟨e', -, ht'⟩ | ⟨s', t', hs', -, -⟩
    · rw [ht] at ht'
      cases ht'
    · exact ⟨fun _ => ⟨s', hs'⟩, fun _ => ⟨s, hs⟩⟩

/-- One report of two joints, and the same in two messages, the waist
corrected on the way and a joint of no known name among them. -/
def whole : List (Event ℚ) :=
  [.jointState ["head_yaw_joint", "waist_yaw_joint"] [1, 2], .tick 0 0,
    .tick 0 5]

def parts : List (Event ℚ) :=
  [.jointState ["waist_yaw_joint"] [7], .jointState ["tail"] [3],
    .jointState ["waist_yaw_joint", "head_yaw_joint"] [2, 1, 9],
    .tick 0 0, .tick 0 5]

theorem known_joints_only_parts :
    (run (init ((∅ : StdMap ℚ).insert "waist_yaw_joint" 3) 2 false
        false) whole).log
      = (run (init (((∅ : StdMap ℚ).insert "waist_yaw_joint" 3).insert
        "tail" 1) 2 false false) parts).log := by
  have htarget : ∀ n ∈ allJoints,
      ((∅ : StdMap ℚ).insert "waist_yaw_joint" 3)[n]?
        = (((∅ : StdMap ℚ).insert "waist_yaw_joint" 3).insert "tail"
          1)[n]? := by
    intro n hn
    rw [Std.TreeMap.getElem?_insert (k := "tail"), if_neg]
    intro h
    rw [Std.LawfulEqCmp.compare_eq_iff_eq] at h
    rw [← h] at hn
    exact absurd hn (by decide)
  have hviews : views whole = views parts := rfl
  exact (known_joints_only htarget 2 false false hviews).1

end JointCmdPublisher

end RlDeploy
