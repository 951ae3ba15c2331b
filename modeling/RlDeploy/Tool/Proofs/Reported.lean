/-
The joint test tool publishes only positions it has been told.

# What it means

Without `--zero` a command may hold three things for a joint (`Told`): the
position last reported for it; its target; or, on the way there, a
position between the target and the one the motion starts from, which
was the last reported one when the motion started. A position that no
message reported takes part in none of them.

# When it holds

The tool waits for a first message, and takes that for news of every
joint: `.get(n, 0.0)` answers `0.0` for a joint that no message has had
yet. So it is told all it publishes if and only if, when the motion
starts, every joint it will hold has been reported, and every joint it
will move, if some tick does interpolate (`allTold_iff`).
-/
import RlDeploy.Tool.Proofs.History

namespace RlDeploy

open Lib

namespace JointCmdPublisher

variable {D : Type} [PyFloat D]

/-- The tool does not drive the joint to a target. -/
def Held (tool : JointCmdPublisher D) (n : String) : Prop :=
  tool.hold = true ∨ tool.targetMap[n]? = none

/-- The command of a tick with the clock reading `now`, after the
callbacks `past` and in the motion `m`, holds only what it was told. -/
structure Told (tool : JointCmdPublisher D) (past : List (Event D))
    (m : Motion D) (now : Int) (cmd : JointState D) : Prop where
  name : cmd.name = allJoints
  length : cmd.position.length = allJoints.length
  held : ∀ (i : Nat) (n : String), allJoints[i]? = some n → Held tool n →
    ∃ p, lastReported past n = some p ∧ cmd.position[i]? = some p
  reached : ∀ (i : Nat) (n : String) (e : D), allJoints[i]? = some n →
    ¬ Held tool n → tool.targetMap[n]? = some e →
    PyFloat.ge (elapsed m.start now) tool.duration = true →
    cmd.position[i]? = some e
  moved : ∀ (i : Nat) (n : String) (e : D), allJoints[i]? = some n →
    ¬ Held tool n → tool.targetMap[n]? = some e →
    PyFloat.ge (elapsed m.start now) tool.duration = false →
    ∃ p, lastReported m.before n = some p
      ∧ cmd.position[i]? = some (p + (e - p)
        * smoothed (PyFloat.quot (elapsed m.start now) tool.duration))

/-- Every command of a run holds only what it was told. -/
def AllTold (tool : JointCmdPublisher D) (events : List (Event D)) :
    Prop :=
  ∀ (past : List (Event D)) (startReading now : Int)
    (later : List (Event D)) (s : JointCmdPublisher D),
    events = past ++ .tick startReading now :: later →
    (run tool past).out = .ok s →
    ∀ cmd ∈ (s.step (.tick startReading now)).log,
      ∃ m, motion (past ++ [.tick startReading now]) = some m
        ∧ Told tool past m now cmd

/-- The tool interpolates at the tick, to a duration it can divide by. -/
def Interpolates (tool : JointCmdPublisher D) (elapsed : D) : Prop :=
  tool.hold = false ∧ PyFloat.ge elapsed tool.duration = false
    ∧ PyFloat.isZero tool.duration = false

/-- Before the motion starts, every joint it needs has been reported: the
ones it holds, and, if some tick interpolates, the ones it moves. Where
the first tick of the motion raises, there is no motion. -/
def ReportedInTime (tool : JointCmdPublisher D)
    (events : List (Event D)) : Prop :=
  ∀ m, motion events = some m →
    (∀ now, m.nows.head? = some now →
      divides tool (elapsed m.start now) = false) →
    (∀ n ∈ allJoints, Held tool n → (lastReported m.before n).isSome)
    ∧ ((∃ now ∈ m.nows, Interpolates tool (elapsed m.start now)) →
      ∀ n ∈ allJoints, ¬ Held tool n → (lastReported m.before n).isSome)

-- ============================================================ one tick

variable {tool s : JointCmdPublisher D} {past : List (Event D)}

omit [PyFloat D] in
theorem not_held_iff {n : String} :
    ¬ Held tool n
      ↔ tool.hold = false ∧ ∃ e, tool.targetMap[n]? = some e := by
  unfold Held
  rw [not_or, Bool.not_eq_true, ← Ne, Option.ne_none_iff_exists']

omit [PyFloat D] in
/-- What has been reported stays reported. -/
theorem lastReported_append {n : String} (h : (lastReported past n).isSome)
    (later : List (Event D)) :
    (lastReported (past ++ later) n).isSome := by
  obtain ⟨p, hp⟩ := Option.isSome_iff_exists.mp h
  unfold lastReported reports at hp ⊢
  rw [List.flatMap_append, List.reverse_append, List.lookup_append, hp]
  cases List.lookup n _ <;> rfl

/-- What a tick publishes has been told if and only if the joints it
holds have been reported by now, and the ones it is moving had been when
the motion started. -/
theorem told_iff (hz : tool.zero = false) (m : Motion D) (now : Int) :
    Told tool past m now (commandOf
        (allJoints.map (entry tool past m (elapsed m.start now))))
      ↔ (∀ n ∈ allJoints, Held tool n → (lastReported past n).isSome)
        ∧ (PyFloat.ge (elapsed m.start now) tool.duration = false →
          ∀ n ∈ allJoints, ¬ Held tool n →
            (lastReported m.before n).isSome) := by
  -- a joint's position in the command
  have hpos : ∀ {i : Nat} {n : String}, allJoints[i]? = some n →
      (commandOf (allJoints.map
        (entry tool past m (elapsed m.start now)))).position[i]?
        = some (entry tool past m (elapsed m.start now) n) := by
    intro i n hi
    show (allJoints.map _)[i]? = _
    rw [List.getElem?_map, hi]
    rfl
  constructor
  · intro h
    constructor
    · intro n hn hheld
      obtain ⟨i, hi⟩ := List.mem_iff_getElem?.mp hn
      obtain ⟨p, hp, -⟩ := h.held i n hi hheld
      rw [hp]
      rfl
    · intro hge n hn hheld
      obtain ⟨i, hi⟩ := List.mem_iff_getElem?.mp hn
      obtain ⟨-, e, he⟩ := not_held_iff.mp hheld
      obtain ⟨p, hp, -⟩ := h.moved i n e hi hheld he hge
      rw [hp]
      rfl
  · rintro ⟨hheld, hmoved⟩
    refine ⟨rfl, List.length_map _, ?_, ?_, ?_⟩
    · intro i n hi hh
      obtain ⟨p, hp⟩ := Option.isSome_iff_exists.mp
        (hheld n (List.mem_of_getElem? hi) hh)
      refine ⟨p, hp, ?_⟩
      rw [hpos hi]
      unfold entry
      rw [hz, hp]
      rcases hh with hh | hh
      · simp [hh]
      · simp [hh]
    · intro i n e hi hh he hge
      obtain ⟨hhold, -⟩ := not_held_iff.mp hh
      rw [hpos hi]
      simp [entry, hz, hhold, he, hge]
    · intro i n e hi hh he hge
      obtain ⟨p, hp⟩ := Option.isSome_iff_exists.mp
        (hmoved hge n (List.mem_of_getElem? hi) hh)
      obtain ⟨hhold, -⟩ := not_held_iff.mp hh
      refine ⟨p, hp, ?_⟩
      rw [hpos hi]
      simp [entry, hz, hhold, he, hge, hp]

-- ============================================================= a run

omit [PyFloat D] in
/-- The part of a history before its motion is a part of it. -/
theorem lastReported_before {m : Motion D} {a b : Int}
    (hm : motion (past ++ [.tick a b]) = some m) {n : String}
    (h : (lastReported m.before n).isSome) :
    (lastReported past n).isSome := by
  obtain ⟨now, later, hevents, -⟩ := motion_start hm
  rw [← lastReported_tick past a b, hevents]
  exact lastReported_append h _

section Run

variable (targetMap : StdMap D) (duration : D) (hold : Bool)

/-- The condition is enough. -/
theorem allTold_of_reported {events : List (Event D)}
    (h : ReportedInTime (init targetMap duration hold false) events) :
    AllTold (init targetMap duration hold false) events := by
  intro past a b later s hevents hrun cmd hcmd
  have hf := run_follows hrun
  cases hr : received past with
  | false =>
      rw [step, hf.tick_wait hr] at hcmd
      cases hcmd
  | true =>
      obtain ⟨m, hm, hb, htick⟩ := hf.tick_eq hr a b
      rw [step, htick] at hcmd
      by_cases hd : divides (init targetMap duration hold false)
          (elapsed m.start b) = true
      · rw [if_pos hd] at hcmd
        cases hcmd
      rw [if_neg hd] at hcmd
      obtain rfl := List.mem_singleton.mp hcmd
      refine ⟨m, hm, (told_iff rfl m b).mpr ?_⟩
      -- the same motion in the whole run, and none of its ticks so far
      -- divides by zero
      obtain ⟨nows, hmotion⟩ := motion_append hm later
      rw [List.append_assoc, List.singleton_append, ← hevents] at hmotion
      have hnever : NeverDivides (init targetMap duration hold false)
          (past ++ [.tick a b]) := by
        rw [neverDivides_tick]
        refine ⟨(run_returns_iff ..).mp ⟨s, hrun⟩, fun m' hm' => ?_⟩
        rw [hm] at hm'
        cases hm'
        simpa using hd
      obtain ⟨hheld, hmoved⟩ := h _ hmotion (by
        intro now hnow
        obtain ⟨first, -, -, -, -, hhead⟩ := motion_start hm
        have hfirst : now = first := by
          rw [List.head?_append, hhead] at hnow
          exact (Option.some.inj hnow).symm
        subst hfirst
        exact hnever m hm now (List.mem_of_head? hhead))
      constructor
      · intro n hn hh
        exact lastReported_before hm (hheld n hn hh)
      · intro hge n hn hh
        have hhold := (not_held_iff.mp hh).1
        apply hmoved ⟨b, List.mem_append_left _ hb, hhold, hge, ?_⟩ n hn hh
        by_contra hzero
        exact hd (divides_iff.mpr ⟨rfl, hhold, hge, by simpa using hzero⟩)

/-- The condition is necessary: the first tick of the motion shows which
joints it holds, and one that interpolates shows which it moves. -/
theorem reported_of_allTold {events : List (Event D)}
    (h : AllTold (init targetMap duration hold false) events) :
    ReportedInTime (init targetMap duration hold false) events := by
  -- a tick of the motion that does not divide publishes its positions,
  -- and these have been told
  have htold : ∀ (past : List (Event D)) (a b : Int)
      (later : List (Event D)) (m : Motion D),
      events = past ++ .tick a b :: later →
      motion (past ++ [.tick a b]) = some m →
      NeverDivides (init targetMap duration hold false) past →
      divides (init targetMap duration hold false) (elapsed m.start b)
        = false →
      Told (init targetMap duration hold false) past m b (commandOf
        (allJoints.map (entry (init targetMap duration hold false) past m
          (elapsed m.start b)))) := by
    intro past a b later m hevents hm hnever hd
    obtain ⟨s, hrun⟩ := (run_returns_iff ..).mpr hnever
    have hr : received past = true := by
      rw [← received_tick past a b]
      exact received_of_motion hm
    obtain ⟨m', hm', -, htick⟩ := (run_follows hrun).tick_eq hr a b
    obtain rfl : m' = m := by
      rw [hm] at hm'
      exact (Option.some.inj hm').symm
    have hlog := h past a b later s hevents hrun
    rw [step, htick, hd] at hlog
    obtain ⟨m₁, hm₁, ht⟩ := hlog _ (List.mem_singleton_self _)
    rw [hm] at hm₁
    cases hm₁
    exact ht
  intro m hm hfirst
  obtain ⟨now, later, hevents, hnone, hr, hhead⟩ := motion_start hm
  have hstart : motion (m.before ++ [.tick m.start now])
      = some ⟨m.before, m.start, [now]⟩ := by
    rw [motion_tick, hnone, if_pos hr]
  constructor
  · intro n hn hh
    have ht := htold m.before m.start now later _ hevents hstart
      (fun m' hm' => by rw [hnone] at hm'; cases hm') (hfirst now hhead)
    exact ((told_iff rfl _ now).mp ht).1 n hn hh
  · rintro ⟨b, hb, hhold, hge, hzero⟩ n hn hh
    have hnever : ∀ el : D,
        divides (init targetMap duration hold false) el = false := by
      intro el
      rw [Bool.eq_false_iff]
      intro hd
      have hz := (divides_iff.mp hd).2.2.2
      rw [hzero] at hz
      cases hz
    obtain ⟨past, a, later', nows, hevents', hm'⟩ := motion_now hm hb
    have ht := htold past a b later' _ hevents' hm'
      (fun _ _ _ _ => hnever _) (hnever _)
    exact ((told_iff rfl _ b).mp ht).2 hge n hn hh

/-- Without `--zero` every command of a run holds only what the tool has
been told if and only if, before the motion starts, every joint it needs
has been reported. -/
theorem allTold_iff (events : List (Event D)) :
    AllTold (init targetMap duration hold false) events
      ↔ ReportedInTime (init targetMap duration hold false) events :=
  ⟨reported_of_allTold targetMap duration hold,
    allTold_of_reported targetMap duration hold⟩

end Run

/-- A message for one joint, then a tick. -/
def oneReport : List (Event ℚ) :=
  [.jointState ["leg_l1_joint"] [1], .tick 0 0]

/-- Holding the position after a message for `leg_l1_joint` alone, the
tool commands `leg_l2_joint`, and every other joint, to `0`. -/
theorem unreported_commanded :
    lastReported oneReport "leg_l2_joint" = none
      ∧ (run (init ∅ 2 true false) oneReport).log.map
          (fun cmd => (cmd.name.take 3, cmd.position.take 3))
        = [(["leg_l1_joint", "leg_l2_joint", "leg_l3_joint"],
          [1, 0, 0])]
      ∧ ¬ AllTold (init ∅ 2 true false) oneReport := by
  refine ⟨by decide, by decide, fun h => ?_⟩
  have hm : motion oneReport
      = some ⟨[.jointState ["leg_l1_joint"] [1]], 0, [0]⟩ := rfl
  obtain ⟨hheld, -⟩ := reported_of_allTold ∅ 2 true h _ hm
    (fun _ _ => rfl)
  have hleg := hheld "leg_l2_joint" (by decide) (Or.inl rfl)
  exact absurd hleg (by decide)

end JointCmdPublisher

end RlDeploy
