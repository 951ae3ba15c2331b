/-
Holding a joint in place, with a robot that answers.

With `--hold`, and for a joint that was given no target, the tool
commands the position it last heard. What it hears next is what the
robot made of that command. So the loop closes over the robot: where
the tool means to hold, the commands are the robot's answers to the
answers, one round after the other (`hold_iterates`). A robot that sags
by some distance under a command is taken down by that distance with
every round, without end; only a position that the robot answers with
itself is held.
-/
import RlDeploy.Tool.Proofs.Reported
import Mathlib.Data.List.Iterate

namespace RlDeploy

open Lib

namespace JointCmdPublisher

variable {D : Type}

-- ============================================================ the loop

/-- Where an element of a list can stand: at its end, or before. -/
theorem snoc_split {α : Type} {past before later : List α} {e e' : α}
    (h : past ++ [e] = before ++ e' :: later) :
    (before = past ∧ e' = e)
      ∨ ∃ rest, past = before ++ e' :: rest := by
  rcases List.eq_nil_or_concat later with rfl | ⟨rest, x, rfl⟩
  · obtain ⟨h₁, h₂⟩ := List.append_inj' h rfl
    cases h₂
    exact Or.inl ⟨h₁.symm, rfl⟩
  · have h' : past ++ [e] = (before ++ e' :: rest) ++ [x] := by
      rw [h, List.concat_eq_append, List.append_assoc, List.cons_append]
    exact Or.inr ⟨rest, (List.append_inj' h' rfl).1⟩

/-- The joint has been reported since the last tick; newest event
first. -/
def heardRev (n : String) : List (Event D) → Bool
  | [] => false
  | .jointState name position :: past =>
      ((name.zip position).reverse.lookup n).isSome || heardRev n past
  | .tick .. :: _ => false

/-- The joint has been reported since the last tick. -/
def heard (n : String) (past : List (Event D)) : Bool :=
  heardRev n past.reverse

theorem heard_message (past : List (Event D)) (name : List String)
    (position : List D) (n : String) :
    heard n (past ++ [.jointState name position])
      = (((name.zip position).reverse.lookup n).isSome
        || heard n past) := by
  unfold heard
  rw [List.reverse_concat, heardRev]

theorem heard_tick (past : List (Event D)) (a b : Int) (n : String) :
    heard n (past ++ [.tick a b]) = false := by
  unfold heard
  rw [List.reverse_concat, heardRev]

theorem lastReported_message (past : List (Event D)) (name : List String)
    (position : List D) (n : String) :
    lastReported (past ++ [.jointState name position]) n
      = ((name.zip position).reverse.lookup n).or
        (lastReported past n) := by
  unfold lastReported
  rw [reports_message, List.reverse_append, List.lookup_append]

variable [PyFloat D]

/-- A robot that answers: what it reports of joint `n`, the `i`th known
joint, after a command is what it makes of the commanded position, and
between two commands it reports the joint at least once. -/
structure Answers (tool : JointCmdPublisher D) (robot : D → D) (i : Nat)
    (n : String) (events : List (Event D)) : Prop where
  report : ∀ (past : List (Event D)) (name : List String)
    (position : List D) (later : List (Event D)) (cmd : JointState D)
    (x v : D), events = past ++ .jointState name position :: later →
    (run tool past).log.getLast? = some cmd →
    cmd.position[i]? = some x →
    (name.zip position).reverse.lookup n = some v → v = robot x
  between : ∀ (past : List (Event D)) (a b : Int)
    (later : List (Event D)), events = past ++ .tick a b :: later →
    (run tool past).log ≠ [] → heard n past = true

/-- A part of the history is answered too. -/
theorem Answers.before {tool : JointCmdPublisher D} {robot : D → D}
    {i : Nat} {n : String} {past later : List (Event D)}
    (h : Answers tool robot i n (past ++ later)) :
    Answers tool robot i n past where
  report := by
    intro p name position l cmd x v hp
    apply h.report p name position (l ++ later)
    rw [hp, List.append_assoc, List.cons_append]
  between := by
    intro p a b l hp
    apply h.between p a b (l ++ later)
    rw [hp, List.append_assoc, List.cons_append]

theorem Answers.nil {tool : JointCmdPublisher D} {robot : D → D}
    {i : Nat} {n : String} : Answers tool robot i n [] where
  report p _ _ _ _ _ _ hp := by cases p <;> cases hp
  between p _ _ _ hp := by cases p <;> cases hp

/-- One more report, which answers the last command. -/
theorem Answers.message {tool : JointCmdPublisher D} {robot : D → D}
    {i : Nat} {n : String} {past : List (Event D)} {name : List String}
    {position : List D} (h : Answers tool robot i n past)
    (hr : ∀ cmd x v, (run tool past).log.getLast? = some cmd →
      cmd.position[i]? = some x →
      (name.zip position).reverse.lookup n = some v → v = robot x) :
    Answers tool robot i n (past ++ [.jointState name position]) where
  report p name' position' l cmd x v hp hcmd hx hv := by
    rcases snoc_split hp with ⟨rfl, he⟩ | ⟨rest, hrest⟩
    · cases he
      exact hr cmd x v hcmd hx hv
    · exact h.report p name' position' rest cmd x v hrest hcmd hx hv
  between p a b l hp := by
    rcases snoc_split hp with ⟨rfl, he⟩ | ⟨rest, hrest⟩
    · cases he
    · exact h.between p a b rest hrest

/-- One more tick, after the joint has been heard of. -/
theorem Answers.tick {tool : JointCmdPublisher D} {robot : D → D}
    {i : Nat} {n : String} {past : List (Event D)} {a b : Int}
    (h : Answers tool robot i n past)
    (ht : (run tool past).log ≠ [] → heard n past = true) :
    Answers tool robot i n (past ++ [.tick a b]) where
  report p name' position' l cmd x v hp := by
    rcases snoc_split hp with ⟨rfl, he⟩ | ⟨rest, hrest⟩
    · cases he
    · exact h.report p name' position' rest cmd x v hrest
  between p a' b' l hp := by
    rcases snoc_split hp with ⟨rfl, he⟩ | ⟨rest, hrest⟩
    · exact ht
    · exact h.between p a' b' rest hrest

-- =========================================================== the rounds

/-- How far the loop is: the commands so far, round by round, and what
was last heard of the joint, which is a command, or the answer to it. -/
structure Rounds (robot : D → D) (i : Nat) (n : String)
    (past : List (Event D)) (log : List (JointState D)) : Prop where
  silent : motion past = none → log = []
  round : ∀ m, motion past = some m → ∃ k,
    log.map (fun cmd => cmd.position[i]?)
      = (List.iterate robot
          ((lastReported m.before n).getD (PyFloat.lit 0)) (k + 1)).map
        some
    ∧ (lastReported past n).getD (PyFloat.lit 0)
      = robot^[if heard n past then k + 1 else k]
          ((lastReported m.before n).getD (PyFloat.lit 0))

omit [PyFloat D] in
/-- The last of the rounds. -/
theorem getLast?_of_iterate {robot : D → D} {i : Nat} {x₀ : D} {k : Nat}
    {log : List (JointState D)}
    (h : log.map (fun cmd => cmd.position[i]?)
      = (List.iterate robot x₀ (k + 1)).map some) :
    ∃ cmd, log.getLast? = some cmd
      ∧ cmd.position[i]? = some (robot^[k] x₀) := by
  have hlast : (log.map fun cmd => cmd.position[i]?).getLast?
      = some (some (robot^[k] x₀)) := by
    rw [h, List.iterate_add, List.map_append,
      List.getLast?_append_of_ne_nil _ (by simp [List.iterate])]
    rfl
  rw [List.getLast?_map] at hlast
  obtain ⟨cmd, hcmd, hpos⟩ := Option.map_eq_some_iff.mp hlast
  exact ⟨cmd, hcmd, hpos⟩

variable {tool s : JointCmdPublisher D} {robot : D → D} {i : Nat}
  {n : String} {past : List (Event D)}

/-- Hearing of the joint takes the loop from a command to its answer. -/
theorem Rounds.message {name : List String} {position : List D}
    (hans : Answers tool robot i n
      (past ++ [.jointState name position]))
    (h : Rounds robot i n past (run tool past).log) :
    Rounds robot i n (past ++ [.jointState name position])
      (run tool past).log where
  silent := by
    rw [motion_message]
    exact h.silent
  round := by
    rw [motion_message]
    intro m hm
    obtain ⟨k, hlog, hheld⟩ := h.round m hm
    refine ⟨k, hlog, ?_⟩
    rw [lastReported_message, heard_message]
    cases hv : (name.zip position).reverse.lookup n with
    | none => exact hheld
    | some v =>
        obtain ⟨cmd, hcmd, hpos⟩ := getLast?_of_iterate hlog
        have hanswer := hans.report past name position [] cmd _ v rfl
          hcmd hpos hv
        rw [hanswer, ← Function.iterate_succ_apply' robot k]
        rfl

/-- A joint that is held is commanded to where it was last heard. -/
theorem entry_of_held (hz : tool.zero = false) (hheld : Held tool n)
    (m : Motion D) (elapsed : D) :
    entry tool past m elapsed n
      = (lastReported past n).getD (PyFloat.lit 0) := by
  unfold entry
  rw [hz]
  rcases hheld with hh | hh
  · rw [hh]
    rfl
  · rw [hh]
    cases tool.hold <;> rfl

/-- A command starts the next round. -/
theorem Rounds.tick (hz : tool.zero = false) (hheld : Held tool n)
    (hi : allJoints[i]? = some n) {a b : Int}
    (hans : Answers tool robot i n (past ++ [.tick a b]))
    (h : Rounds robot i n past (run tool past).log)
    (hf : Follows tool past s) {s' : JointCmdPublisher D}
    (hs : (s.tick a b).out = .ok s') :
    Rounds robot i n (past ++ [.tick a b])
      ((run tool past).log ++ (s.tick a b).log) := by
  cases hr : received past with
  | false =>
      have hnone : motion (past ++ [.tick a b]) = none := by
        apply motion_eq_none
        rw [received_tick, hr]
      refine ⟨fun _ => ?_, fun m hm => ?_⟩
      · rw [hf.tick_wait hr, h.silent (motion_eq_none hr)]
        rfl
      · rw [hnone] at hm
        cases hm
  | true =>
      obtain ⟨m, hm, -, htick⟩ := hf.tick_eq hr a b
      have hlog : (s.tick a b).log = [commandOf (allJoints.map
          (entry tool past m (elapsed m.start b)))] := by
        rw [htick] at hs ⊢
        by_cases hdiv : divides tool (elapsed m.start b)
        · rw [if_pos hdiv] at hs
          cases hs
        · rw [if_neg hdiv]
      have hpos : (commandOf (allJoints.map
          (entry tool past m (elapsed m.start b)))).position[i]?
          = some ((lastReported past n).getD (PyFloat.lit 0)) := by
        unfold commandOf
        rw [List.getElem?_map, hi, Option.map_some,
          entry_of_held hz hheld]
      refine ⟨fun hnone => ?_, fun m' hm' => ?_⟩
      · rw [hm] at hnone
        cases hnone
      · rw [hm] at hm'
        cases hm'
        rw [hlog, List.map_append, List.map_singleton, hpos, heard_tick,
          lastReported_tick]
        rw [motion_tick, hr] at hm
        cases hpast : motion past with
        | none =>
            -- the first command: the position found
            rw [hpast] at hm
            cases hm
            refine ⟨0, ?_, rfl⟩
            rw [h.silent hpast]
            rfl
        | some m₀ =>
            rw [hpast] at hm
            cases hm
            obtain ⟨k, hrounds, hlast⟩ := h.round m₀ hpast
            have hne : (run tool past).log ≠ [] := by
              intro hnil
              obtain ⟨cmd, hcmd, -⟩ := getLast?_of_iterate hrounds
              rw [hnil] at hcmd
              cases hcmd
            rw [hans.between past a b [] rfl hne, if_pos rfl] at hlast
            refine ⟨k + 1, ?_, hlast⟩
            rw [hrounds, hlast, List.iterate_add robot _ (k + 1) 1,
              List.map_append]
            rfl

/-- The rounds of a run that returns. -/
theorem run_rounds {targetMap : StdMap D} {duration : D} {hold : Bool}
    (hheld : Held (init targetMap duration hold false) n)
    (hi : allJoints[i]? = some n) {events : List (Event D)}
    (hans : Answers (init targetMap duration hold false) robot i n
      events) {s : JointCmdPublisher D}
    (h : (run (init targetMap duration hold false) events).out
      = .ok s) :
    Rounds robot i n events
      (run (init targetMap duration hold false) events).log := by
  have hrule := Logged.run_past
    (fun past log _ =>
      Answers (init targetMap duration hold false) robot i n past →
        Rounds robot i n past log) ?_ ?_ h
  · exact hrule hans
  · intro _
    refine ⟨fun _ => rfl, fun m hm => ?_⟩
    cases hm
  · intro past s₁ e s₂ hpast hround hstep hanswers
    cases e with
    | jointState name position =>
        show Rounds robot i n _ (_ ++ [])
        rw [List.append_nil]
        exact (hround hanswers.before).message hanswers
    | tick a b =>
        exact (hround hanswers.before).tick rfl hheld hi hanswers
          (run_follows hpast) hstep

/-- The tick that divides by zero commands nothing. -/
theorem Follows.tick_fails (h : Follows tool past s) {a b : Int}
    {f : PyError} (hfail : (s.tick a b).out = .error f) :
    (s.tick a b).log = [] := by
  cases hr : received past with
  | false => rw [h.tick_wait hr]
  | true =>
      obtain ⟨m, -, -, htick⟩ := h.tick_eq hr a b
      rw [htick] at hfail ⊢
      by_cases hdiv : divides tool (elapsed m.start b)
      · rw [if_pos hdiv]
      · rw [if_neg hdiv] at hfail
        cases hfail

/-- The commands of a history in rounds are as many answers. -/
theorem Rounds.commands {log : List (JointState D)}
    (h : Rounds robot i n past log) {m : Motion D}
    (hm : motion past = some m) :
    log.map (fun cmd => cmd.position[i]?)
      = (List.iterate robot
          ((lastReported m.before n).getD (PyFloat.lit 0))
          log.length).map some := by
  obtain ⟨k, hlog, -⟩ := h.round m hm
  have hlen : log.length = k + 1 := by
    have hcount := congrArg List.length hlog
    rwa [List.length_map, List.length_map, List.length_iterate]
      at hcount
  rw [hlen]
  exact hlog

/-- Where the tool holds a joint and the robot answers, the `k`th command
is the robot's answer, `k` times over, to where the joint was first: for
every robot, on every run. -/
theorem hold_iterates (targetMap : StdMap D) (duration : D) (hold : Bool)
    (robot : D → D) {i : Nat} {n : String}
    (hheld : Held (init targetMap duration hold false) n)
    (hi : allJoints[i]? = some n) {events : List (Event D)}
    (hans : Answers (init targetMap duration hold false) robot i n
      events) {m : Motion D} (hm : motion events = some m) :
    (run (init targetMap duration hold false) events).log.map
        (fun cmd => cmd.position[i]?)
      = (List.iterate robot
          ((lastReported m.before n).getD (PyFloat.lit 0))
          (run (init targetMap duration hold false) events).log.length).map
        some := by
  cases hout : (run (init targetMap duration hold false) events).out with
  | ok s => exact (run_rounds hheld hi hans hout).commands hm
  | error f =>
      obtain ⟨past, e, later, s, rfl, hpast, hfail, hlog⟩ :=
        Logged.run_stopped hout
      have hrounds := run_rounds hheld hi hans.before hpast
      have hnothing : (step s e).log = [] := by
        cases e with
        | jointState name position => cases hfail
        | tick a b => exact (run_follows hpast).tick_fails hfail
      rw [hnothing, List.append_nil] at hlog
      have hruns : (run (init targetMap duration hold false)
          (past ++ e :: later)).log
          = (run (init targetMap duration hold false) past).log := hlog
      rw [hruns]
      cases hpm : motion past with
      | none =>
          rw [hrounds.silent hpm]
          rfl
      | some m' =>
          obtain ⟨nows, happend⟩ := motion_append hpm (e :: later)
          have hbefore : m.before = m'.before := by
            rw [hm] at happend
            cases happend
            rfl
          rw [hbefore]
          exact hrounds.commands hpm

/-- A waist that gives way by `1/4` under every command: told to hold
it, the tool takes it down in steps of `1/4`. -/
theorem hold_iterates_sagging :
    (run (init (∅ : StdMap ℚ) 2 true false)
        [.jointState ["waist_yaw_joint"] [1], .tick 0 0,
          .jointState ["head_yaw_joint", "waist_yaw_joint"] [7, 3 / 4],
          .tick 0 1]).log.map (fun cmd => cmd.position[28]?)
      = [some 1, some (3 / 4)] := by
  have hi : allJoints[28]? = some "waist_yaw_joint" := rfl
  have hfirst : Answers (init (∅ : StdMap ℚ) 2 true false) (· - 1 / 4) 28
      "waist_yaw_joint" ([] ++ [.jointState ["waist_yaw_joint"] [1]]) :=
    Answers.nil.message fun cmd x v hcmd => by cases hcmd
  have hcommand : Answers (init (∅ : StdMap ℚ) 2 true false) (· - 1 / 4)
      28 "waist_yaw_joint"
      (([] ++ [.jointState ["waist_yaw_joint"] [1]]) ++ [.tick 0 0]) :=
    hfirst.tick fun h => absurd rfl h
  have hanswer : Answers (init (∅ : StdMap ℚ) 2 true false) (· - 1 / 4)
      28 "waist_yaw_joint"
      ((([] ++ [.jointState ["waist_yaw_joint"] [1]]) ++ [.tick 0 0])
        ++ [.jointState ["head_yaw_joint", "waist_yaw_joint"]
          [7, 3 / 4]]) := by
    apply hcommand.message
    intro cmd x v hcmd hx hv
    cases hcmd
    cases hx
    cases hv
    decide +kernel
  have hans : Answers (init (∅ : StdMap ℚ) 2 true false) (· - 1 / 4)
      28 "waist_yaw_joint"
      (((([] ++ [.jointState ["waist_yaw_joint"] [1]]) ++ [.tick 0 0])
        ++ [.jointState ["head_yaw_joint", "waist_yaw_joint"]
          [7, 3 / 4]]) ++ [.tick 0 1]) :=
    hanswer.tick fun _ => rfl
  have hanswers : List.iterate (fun x : ℚ => x - 1 / 4) 1 2
      = [1, 3 / 4] := by decide +kernel
  exact (hold_iterates ∅ 2 true (· - 1 / 4) (Or.inl rfl) hi hans
    rfl).trans (congrArg (List.map some) hanswers)

end JointCmdPublisher

end RlDeploy
