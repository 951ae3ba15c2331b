/-
The joint test tool's state as a function of the callbacks so far.

# What a history says

- `lastReported`: the position of a joint in the last message that had
  one for it.
- `motion`: the motion that has started, if one has: it starts at the
  first tick that follows a message, and is described by what came
  before that tick and by the clock readings from there on.

# The invariant

`Follows tool past s`: after the callbacks `past` the state `s` holds the
last reported positions, the flag of a message having come, and, once a
motion has started, its time and the positions it starts from. Nothing
else in the state is ever read. Every callback that returns keeps it
(`Follows.step`), so it holds at the end of every run (`run_follows`).
-/
import RlDeploy.Tool.JointCmd

namespace RlDeploy

open Lib

namespace JointCmdPublisher

variable {D : Type}

-- ============================================================ history

/-- The positions the messages reported, in order. -/
def reports (events : List (Event D)) : List (String × D) :=
  events.flatMap fun
    | .jointState name position => name.zip position
    | .tick .. => []

/-- The position a joint was last reported at. -/
def lastReported (events : List (Event D)) (n : String) : Option D :=
  (reports events).reverse.lookup n

/-- A message has come, with positions or without. -/
def received (events : List (Event D)) : Bool :=
  events.any fun
    | .jointState .. => true
    | .tick .. => false

/-- A started motion: the callbacks before the tick that started it, the
clock reading it starts at, and the ones for the elapsed time since. -/
structure Motion (D : Type) where
  before : List (Event D)
  start : Int
  nows : List Int

/-- The motion at the end of a history, read from its end. -/
def motionRev : List (Event D) → Option (Motion D)
  | [] => none
  | .jointState .. :: past => motionRev past
  | .tick startReading now :: past =>
      match motionRev past with
      | some m => some { m with nows := m.nows ++ [now] }
      | none =>
          if received past then some ⟨past.reverse, startReading, [now]⟩
          else none

def motion (events : List (Event D)) : Option (Motion D) :=
  motionRev events.reverse

theorem received_reverse (events : List (Event D)) :
    received events.reverse = received events := by
  unfold received
  rw [List.any_reverse]

theorem motion_message (past : List (Event D)) (name : List String)
    (position : List D) :
    motion (past ++ [.jointState name position]) = motion past := by
  unfold motion
  rw [List.reverse_concat]
  rfl

theorem motion_tick (past : List (Event D)) (startReading now : Int) :
    motion (past ++ [.tick startReading now]) = match motion past with
      | some m => some { m with nows := m.nows ++ [now] }
      | none =>
          if received past then some ⟨past, startReading, [now]⟩
          else none := by
  unfold motion
  rw [List.reverse_concat, motionRev, received_reverse,
    List.reverse_reverse]

theorem reports_message (past : List (Event D)) (name : List String)
    (position : List D) :
    reports (past ++ [.jointState name position])
      = reports past ++ name.zip position := by
  unfold reports
  rw [List.flatMap_append]
  simp

theorem lastReported_tick (past : List (Event D)) (a b : Int)
    (n : String) :
    lastReported (past ++ [.tick a b]) n = lastReported past n := by
  unfold lastReported reports
  rw [List.flatMap_append]
  simp

theorem received_message (past : List (Event D)) (name : List String)
    (position : List D) :
    received (past ++ [.jointState name position]) = true := by
  unfold received
  simp

theorem received_tick (past : List (Event D)) (a b : Int) :
    received (past ++ [.tick a b]) = received past := by
  unfold received
  simp

/-- Nothing more starts once a motion has started. -/
theorem motion_append {past : List (Event D)} {m : Motion D}
    (h : motion past = some m) (later : List (Event D)) :
    ∃ nows, motion (past ++ later)
      = some { m with nows := m.nows ++ nows } := by
  induction later using List.reverseRecOn with
  | nil =>
      refine ⟨[], ?_⟩
      rw [List.append_nil, List.append_nil, h]
  | append_singleton later e ih =>
      obtain ⟨nows, ih⟩ := ih
      rw [← List.append_assoc]
      cases e with
      | jointState name position =>
          exact ⟨nows, by rw [motion_message, ih]⟩
      | tick a b =>
          refine ⟨nows ++ [b], ?_⟩
          rw [motion_tick, ih]
          simp

/-- The tick that starts a motion finds a message and no motion. -/
theorem motion_start {events : List (Event D)} {m : Motion D}
    (h : motion events = some m) :
    ∃ now later, events = m.before ++ .tick m.start now :: later
      ∧ motion m.before = none ∧ received m.before = true
      ∧ m.nows.head? = some now := by
  induction events using List.reverseRecOn generalizing m with
  | nil => cases h
  | append_singleton past e ih =>
      cases e with
      | jointState name position =>
          rw [motion_message] at h
          obtain ⟨now, later, rfl, hrest⟩ := ih h
          refine ⟨now, later ++ [.jointState name position], ?_, hrest⟩
          rw [List.append_assoc]
          rfl
      | tick a b =>
          rw [motion_tick] at h
          cases hm : motion past with
          | some m' =>
              rw [hm] at h
              cases h
              obtain ⟨now, later, hpast, hnone, hrec, hhead⟩ := ih hm
              refine ⟨now, later ++ [.tick a b], ?_, hnone, hrec, ?_⟩
              · rw [hpast, List.append_assoc]
                rfl
              · rw [List.head?_append, hhead]
                rfl
          | none =>
              rw [hm] at h
              by_cases hr : received past = true
              · simp only [hr, if_true] at h
                cases h
                exact ⟨b, [], rfl, hm, hr, rfl⟩
              · simp only [hr] at h
                cases h

/-- A motion starts after a message only. -/
theorem received_of_motion {events : List (Event D)} {m : Motion D}
    (h : motion events = some m) : received events = true := by
  obtain ⟨now, later, rfl, -, hr, -⟩ := motion_start h
  unfold received at hr ⊢
  rw [List.any_append, hr, Bool.true_or]

theorem motion_eq_none {events : List (Event D)}
    (hr : received events = false) : motion events = none := by
  cases hm : motion events with
  | none => rfl
  | some m =>
      rw [received_of_motion hm] at hr
      cases hr

/-- Every reading since the start is that of a tick, by then in the same
motion. -/
theorem motion_now {events : List (Event D)} {m : Motion D}
    (h : motion events = some m) {now : Int} (hnow : now ∈ m.nows) :
    ∃ past a later nows, events = past ++ .tick a now :: later
      ∧ motion (past ++ [.tick a now])
        = some { m with nows := nows } := by
  induction events using List.reverseRecOn generalizing m with
  | nil => cases h
  | append_singleton past e ih =>
      cases e with
      | jointState name position =>
          rw [motion_message] at h
          obtain ⟨past', a, later, nows, rfl, hm⟩ := ih h hnow
          refine ⟨past', a, later ++ [.jointState name position], nows,
            ?_, hm⟩
          rw [List.append_assoc]
          rfl
      | tick a b =>
          by_cases hb : now = b
          · subst hb
            exact ⟨past, a, [], m.nows, rfl, h⟩
          rw [motion_tick] at h
          cases hm : motion past with
          | some m' =>
              rw [hm] at h
              cases h
              have hnow' : now ∈ m'.nows := by
                rcases List.mem_append.mp hnow with hin | hin
                · exact hin
                · exact absurd (List.mem_singleton.mp hin) hb
              obtain ⟨past', a', later, nows, rfl, hm'⟩ := ih hm hnow'
              refine ⟨past', a', later ++ [.tick a b], nows, ?_, hm'⟩
              rw [List.append_assoc]
              rfl
          | none =>
              rw [hm] at h
              by_cases hr : received past = true
              · simp only [hr, if_true] at h
                cases h
                exact absurd (List.mem_singleton.mp hnow) hb
              · simp only [hr] at h
                cases h

-- ====================================================== the invariant

variable [PyFloat D]

/-- What a command holds for a joint, by what was reported. -/
def entry (tool : JointCmdPublisher D) (past : List (Event D))
    (m : Motion D) (elapsed : D) (n : String) : D :=
  let held := (lastReported past n).getD (PyFloat.lit 0)
  if tool.zero then PyFloat.lit 0
  else if tool.hold then held
  else match tool.targetMap[n]? with
    | none => held
    | some e =>
        if PyFloat.ge elapsed tool.duration then e
        else
          let s := (lastReported m.before n).getD (PyFloat.lit 0)
          s + (e - s) * smoothed (PyFloat.quot elapsed tool.duration)

/-- The tick divides by a zero duration. -/
def divides (tool : JointCmdPublisher D) (elapsed : D) : Bool :=
  !tool.zero && !tool.hold && !PyFloat.ge elapsed tool.duration
    && PyFloat.isZero tool.duration

theorem divides_iff {tool : JointCmdPublisher D} {elapsed : D} :
    divides tool elapsed = true
      ↔ tool.zero = false ∧ tool.hold = false
        ∧ PyFloat.ge elapsed tool.duration = false
        ∧ PyFloat.isZero tool.duration = true := by
  unfold divides
  simp only [Bool.and_eq_true, Bool.not_eq_true', and_assoc]

/-- The state after the callbacks `past` of a tool started as `tool`. -/
structure Follows (tool : JointCmdPublisher D) (past : List (Event D))
    (s : JointCmdPublisher D) : Prop where
  targetMap : s.targetMap = tool.targetMap
  duration : s.duration = tool.duration
  hold : s.hold = tool.hold
  zero : s.zero = tool.zero
  flag : s.currentReceived = received past
  currentPos : ∀ n, s.currentPos[n]? = lastReported past n
  startTime : s.startTime = (motion past).map Motion.start
  startPos : ∀ m, motion past = some m → ∀ n e,
    tool.targetMap[n]? = some e → s.startPos[n]?
      = some ((lastReported m.before n).getD (PyFloat.lit 0))

theorem init_follows (targetMap : StdMap D) (duration : D)
    (hold zero : Bool) :
    Follows (init targetMap duration hold zero) []
      (init targetMap duration hold zero) :=
  ⟨rfl, rfl, rfl, rfl, rfl, fun _ => rfl, rfl, fun _ h => by cases h⟩

variable {tool s : JointCmdPublisher D} {past : List (Event D)}

theorem Follows.current_eq (h : Follows tool past s) (n : String) :
    s.current n = (lastReported past n).getD (PyFloat.lit 0) := by
  unfold current
  rw [h.currentPos]

/-- A message is remembered. -/
theorem Follows.jsCb (h : Follows tool past s) (name : List String)
    (position : List D) :
    Follows tool (past ++ [.jointState name position])
      (s.jsCb name position) := by
  refine ⟨h.targetMap, h.duration, h.hold, h.zero, ?_, fun n => ?_, ?_,
    ?_⟩
  · rw [received_message]
    rfl
  · show ((name.zip position).foldl _ s.currentPos)[n]? = _
    rw [insertAll_getElem?, h.currentPos]
    unfold lastReported
    rw [reports_message, List.reverse_append, List.lookup_append]
  · rw [motion_message]
    exact h.startTime
  · rw [motion_message]
    exact h.startPos

/-- The start of a motion takes the positions reported by then. -/
theorem Follows.start (h : Follows tool past s)
    (hr : received past = true) (a b : Int) :
    Follows tool (past ++ [.tick a b]) (s.start a) := by
  have hpos : ∀ n, s.currentPos[n]?
      = lastReported (past ++ [.tick a b]) n := by
    intro n
    rw [lastReported_tick]
    exact h.currentPos n
  have hflag : s.currentReceived = received (past ++ [.tick a b]) := by
    rw [received_tick]
    exact h.flag
  unfold JointCmdPublisher.start
  cases hm : motion past with
  | some m =>
      have hstart : s.startTime = some m.start := by
        rw [h.startTime, hm]
        rfl
      rw [hstart]
      refine ⟨h.targetMap, h.duration, h.hold, h.zero, hflag, hpos, ?_, ?_⟩
      · rw [motion_tick, hm, hstart]
        rfl
      · intro m' hm' n e hn
        rw [motion_tick, hm] at hm'
        cases hm'
        exact h.startPos m hm n e hn
  | none =>
      have hstart : s.startTime = none := by
        rw [h.startTime, hm]
        rfl
      rw [hstart]
      refine ⟨h.targetMap, h.duration, h.hold, h.zero, hflag, hpos, ?_, ?_⟩
      · rw [motion_tick, hm, if_pos hr]
        rfl
      · intro m' hm' n e hn
        rw [motion_tick, hm] at hm'
        simp only [hr, if_true] at hm'
        cases hm'
        have hkey : n ∈ s.targetMap.toList.map Prod.fst := by
          rw [← h.targetMap] at hn
          exact List.mem_map.mpr
            ⟨(n, e), Std.TreeMap.mem_toList_iff_getElem?_eq_some.mpr hn, rfl⟩
        show (s.targetMap.foldl _ s.startPos)[n]? = _
        rw [Std.TreeMap.foldl_eq_foldl_toList, insertEach_getElem?,
          if_pos hkey, h.current_eq]

/-- Reaching the target changes nothing that is read. -/
theorem Follows.reach (h : Follows tool past s) (elapsed : D) :
    Follows tool past (s.reach elapsed) := by
  unfold JointCmdPublisher.reach
  split
  · exact ⟨h.targetMap, h.duration, h.hold, h.zero, h.flag, h.currentPos,
      h.startTime, h.startPos⟩
  · exact h

/-- A tick before any message changes nothing. -/
theorem Follows.wait (h : Follows tool past s)
    (hr : received past = false) (a b : Int) :
    Follows tool (past ++ [.tick a b]) s := by
  have hm := motion_eq_none hr
  have hm' : motion (past ++ [.tick a b]) = none :=
    motion_eq_none (by rw [received_tick, hr])
  refine ⟨h.targetMap, h.duration, h.hold, h.zero, ?_, fun n => ?_, ?_,
    ?_⟩
  · rw [received_tick]
    exact h.flag
  · rw [lastReported_tick]
    exact h.currentPos n
  · rw [h.startTime, hm, hm']
  · intro m hsome
    rw [hm'] at hsome
    cases hsome

-- ============================================================ a tick

/-- The positions of a command, by what was reported; there are none if
the tick divides by zero. -/
theorem Follows.positions_eq (h : Follows tool past s) {m : Motion D}
    (hm : motion past = some m) (elapsed : D) :
    s.positions elapsed = if divides tool elapsed then
        .error .zeroDivision
      else .ok (allJoints.map (entry tool past m elapsed)) := by
  have hcur : s.current
      = fun n => (lastReported past n).getD (PyFloat.lit 0) :=
    funext h.current_eq
  unfold positions divides pyDiv
  rw [h.zero, h.hold, h.duration, h.targetMap, hcur]
  by_cases hz : tool.zero = true
  · simp only [hz, if_true, Bool.not_true, Bool.false_and,
      Bool.false_eq_true, if_false]
    rw [← List.map_const']
    congr 1
    apply List.map_congr_left
    intro n _
    simp [entry, hz]
  by_cases hh : tool.hold = true
  · simp only [hz, hh, if_true, Bool.not_true, Bool.false_and,
      Bool.and_false, Bool.false_eq_true, if_false]
    congr 1
    apply List.map_congr_left
    intro n _
    simp [entry, hz, hh]
  by_cases hg : PyFloat.ge elapsed tool.duration = true
  · simp only [hz, hh, hg, if_true, Bool.not_true, Bool.false_and,
      Bool.and_false, Bool.false_eq_true, if_false]
    congr 1
    apply List.map_congr_left
    intro n _
    unfold entry
    simp only [hz, hh, hg, if_true, Bool.false_eq_true, if_false]
    cases tool.targetMap[n]? <;> rfl
  by_cases hd : PyFloat.isZero tool.duration = true
  · simp [hz, hh, hg, hd]
  · simp only [hz, hh, hg, hd, Bool.not_false, Bool.and_true,
      Bool.and_false, Bool.false_eq_true, if_false, ok_bind, pure_ok]
    congr 1
    apply List.map_congr_left
    intro n _
    unfold entry
    simp only [hz, hh, hg, Bool.false_eq_true, if_false]
    cases hn : tool.targetMap[n]? with
    | none => rfl
    | some e =>
        dsimp only
        rw [h.startPos m hm n e hn]
        rfl

/-- A command with the given positions. -/
def commandOf (position : List D) : JointState D where
  name := allJoints
  position := position
  velocity := List.replicate allJoints.length (PyFloat.lit 0)
  effort := List.replicate allJoints.length (PyFloat.lit 0)

/-- A tick after a message belongs to a motion, and publishes its
positions unless it divides by zero. -/
theorem Follows.tick_eq (h : Follows tool past s)
    (hr : received past = true) (a b : Int) :
    ∃ m, motion (past ++ [.tick a b]) = some m
      ∧ b ∈ m.nows
      ∧ s.tick a b = if divides tool (elapsed m.start b) then
          ⟨[], .error .zeroDivision⟩
        else ⟨[commandOf (allJoints.map
            (entry tool past m (elapsed m.start b)))],
          .ok ((s.start a).reach (elapsed m.start b))⟩ := by
  obtain ⟨m, hm, hb⟩ : ∃ m, motion (past ++ [.tick a b]) = some m
      ∧ b ∈ m.nows := by
    rw [motion_tick, hr]
    cases motion past with
    | none => exact ⟨_, rfl, List.mem_singleton_self b⟩
    | some m => exact ⟨_, rfl, by simp⟩
  have hs := h.start hr a b
  have htime : (s.start a).startTime = some m.start := by
    rw [hs.startTime, hm]
    rfl
  have hentry : entry tool (past ++ [.tick a b]) m (elapsed m.start b)
      = entry tool past m (elapsed m.start b) := by
    funext n
    unfold entry
    rw [lastReported_tick]
  refine ⟨m, hm, hb, ?_⟩
  unfold tick
  rw [h.flag, hr]
  simp only [Bool.not_true, Bool.false_eq_true, if_false]
  rw [htime, Option.getD_some, hs.positions_eq hm, hentry]
  by_cases hd : divides tool (elapsed m.start b) = true
  · rw [if_pos hd, if_pos hd]
    rfl
  · rw [if_neg hd, if_neg hd]
    rfl

/-- Before any message a tick does nothing. -/
theorem Follows.tick_wait (h : Follows tool past s)
    (hr : received past = false) (a b : Int) :
    s.tick a b = ⟨[], .ok s⟩ := by
  unfold tick
  rw [h.flag, hr]
  rfl

/-- A tick returns unless it divides by zero. -/
theorem Follows.tick_returns_iff (h : Follows tool past s) (a b : Int) :
    (∃ s', (s.tick a b).out = .ok s')
      ↔ ∀ m, motion (past ++ [.tick a b]) = some m →
        divides tool (elapsed m.start b) = false := by
  cases hr : received past with
  | false =>
      have hm : motion (past ++ [.tick a b]) = none :=
        motion_eq_none (by rw [received_tick, hr])
      rw [h.tick_wait hr, hm]
      exact ⟨fun _ _ hn => (by cases hn), fun _ => ⟨s, rfl⟩⟩
  | true =>
      obtain ⟨m, hm, -, htick⟩ := h.tick_eq hr a b
      rw [htick, hm]
      by_cases hd : divides tool (elapsed m.start b) = true
      · simp [hd]
      · simp [hd]

-- ============================================================== runs

/-- Every callback that returns keeps the invariant. -/
theorem Follows.step (h : Follows tool past s) {e : Event D}
    {s' : JointCmdPublisher D} (hs : (s.step e).out = .ok s') :
    Follows tool (past ++ [e]) s' := by
  cases e with
  | jointState name position =>
      cases hs
      exact h.jsCb name position
  | tick a b =>
      cases hr : received past with
      | false =>
          rw [JointCmdPublisher.step, h.tick_wait hr] at hs
          cases hs
          exact h.wait hr a b
      | true =>
          obtain ⟨m, hm, -, htick⟩ := h.tick_eq hr a b
          rw [JointCmdPublisher.step, htick] at hs
          by_cases hd : divides tool (elapsed m.start b) = true
          · rw [if_pos hd] at hs
            cases hs
          · rw [if_neg hd] at hs
            cases hs
            exact (h.start hr a b).reach _

/-- So at the end of every run that returns, the state is the one its
callbacks describe. -/
theorem run_follows {targetMap : StdMap D} {duration : D}
    {hold zero : Bool} {events : List (Event D)}
    (h : (run (init targetMap duration hold zero) events).out = .ok s) :
    Follows (init targetMap duration hold zero) events s :=
  Logged.run_past
    (fun past _ s => Follows (init targetMap duration hold zero) past s)
    (init_follows ..) (fun _ hf hs => hf.step hs) h

/-- No tick of the run's motion divides by zero. -/
def NeverDivides (tool : JointCmdPublisher D) (events : List (Event D)) :
    Prop :=
  ∀ m, motion events = some m → ∀ b ∈ m.nows,
    divides tool (elapsed m.start b) = false

theorem neverDivides_message (tool : JointCmdPublisher D)
    (past : List (Event D)) (name : List String) (position : List D) :
    NeverDivides tool (past ++ [.jointState name position])
      ↔ NeverDivides tool past := by
  unfold NeverDivides
  rw [motion_message]

/-- One more tick: none before divides, and it does not either. -/
theorem neverDivides_tick (tool : JointCmdPublisher D)
    (past : List (Event D)) (a b : Int) :
    NeverDivides tool (past ++ [.tick a b])
      ↔ NeverDivides tool past
        ∧ ∀ m, motion (past ++ [.tick a b]) = some m →
          divides tool (elapsed m.start b) = false := by
  unfold NeverDivides
  rw [motion_tick]
  cases hm : motion past with
  | none =>
      by_cases hr : received past = true
      · simp [hr]
      · simp [hr]
  | some m =>
      simp only [Option.some.injEq, forall_eq', List.mem_append,
        List.mem_singleton, or_imp, forall_and, forall_eq]

/-- A run returns if and only if none of its ticks divides by zero. -/
theorem run_returns_iff (targetMap : StdMap D) (duration : D)
    (hold zero : Bool) (events : List (Event D)) :
    (∃ s, (run (init targetMap duration hold zero) events).out = .ok s)
      ↔ NeverDivides (init targetMap duration hold zero) events := by
  induction events using List.reverseRecOn with
  | nil => exact ⟨fun _ _ h => (by cases h), fun _ => ⟨_, rfl⟩⟩
  | append_singleton past e ih =>
      unfold run at ih ⊢
      rw [Logged.run_snoc_returns]
      cases e with
      | jointState name position =>
          rw [neverDivides_message, ← ih]
          constructor
          · rintro ⟨s, hs, -⟩
            exact ⟨s, hs⟩
          · rintro ⟨s, hs⟩
            exact ⟨s, hs, _, rfl⟩
      | tick a b =>
          rw [neverDivides_tick, ← ih]
          constructor
          · rintro ⟨s, hs, hs'⟩
            exact ⟨⟨s, hs⟩, ((run_follows hs).tick_returns_iff a b).mp hs'⟩
          · rintro ⟨⟨s, hs⟩, hd⟩
            exact ⟨s, hs, ((run_follows hs).tick_returns_iff a b).mpr hd⟩

end JointCmdPublisher

end RlDeploy
