/-
`class JointCmdPublisher` of `scripts/test_joint_cmd.py`: the command
line tool that moves joints to given targets, or holds them.

# Arithmetic

Python's floats are a type `D` with the operations the tool uses
(`PyFloat`). Nothing is assumed of them, but that a division by what
compares equal to zero raises; the exact instance is `ℚ`.

# Events

The node has two callbacks: `_js_cb` on a joint state message, `_tick`
on its timer. A tick reads the clock up to twice: when it starts the
motion, and for the elapsed time. Both readings, in nanoseconds, come
with the event; what a tick publishes is its log. A raised exception
leaves `rclpy.spin`, so it ends the run. Log lines and the time stamp of
a command are left out.

A `dict` is a `StdMap`: the tool only looks keys up in it.
-/
import RlDeploy.Converter.Adapter
import RlDeploy.Lib.Logged

namespace RlDeploy

open Lib

-- ======================================================== arithmetic

/-- The operations on Python floats that the tool uses. -/
class PyFloat (D : Type) extends Add D, Sub D, Mul D where
  /-- The quotient, where the divisor is not zero. -/
  quot : D → D → D
  /-- `x == 0.0`. -/
  isZero : D → Bool
  /-- `a >= b`. -/
  ge : D → D → Bool
  /-- A float literal. -/
  lit : ℚ → D
  /-- An integer as an operand of a float operation. -/
  ofInt : Int → D

/-- Exact arithmetic. -/
instance : PyFloat ℚ where
  quot a b := a / b
  isZero a := decide (a = 0)
  ge a b := decide (b ≤ a)
  lit q := q
  ofInt n := n

/-- The exceptions a callback can raise. -/
inductive PyError
  | zeroDivision
  deriving DecidableEq, Repr

/-- The operator `/`. -/
def pyDiv {D : Type} [PyFloat D] (a b : D) : Except PyError D :=
  if PyFloat.isZero b then .error .zeroDivision else .ok (PyFloat.quot a b)

-- ========================================================== the node

/-- `ALL_JOINTS`. -/
def allJoints : List String := [
  "leg_l1_joint", "leg_l2_joint", "leg_l3_joint",
  "leg_l4_joint", "leg_l5_joint", "leg_l6_joint",
  "leg_r1_joint", "leg_r2_joint", "leg_r3_joint",
  "leg_r4_joint", "leg_r5_joint", "leg_r6_joint",
  "left_shoulder_pitch_joint", "left_shoulder_roll_joint",
  "left_shoulder_yaw_joint", "left_elbow_pitch_joint",
  "left_wrist_yaw_joint", "left_wrist_pitch_joint",
  "left_wrist_roll_joint",
  "right_shoulder_pitch_joint", "right_shoulder_roll_joint",
  "right_shoulder_yaw_joint", "right_elbow_pitch_joint",
  "right_wrist_yaw_joint", "right_wrist_pitch_joint",
  "right_wrist_roll_joint",
  "head_yaw_joint", "head_pitch_joint",
  "waist_yaw_joint",
  "left_thumb_metacarpal_joint", "left_thumb_proximal_joint",
  "left_index_proximal_joint", "left_index_distal_joint",
  "left_middle_proximal_joint", "left_middle_distal_joint",
  "left_ring_proximal_joint", "left_ring_distal_joint",
  "left_pinky_proximal_joint", "left_pinky_distal_joint",
  "right_thumb_metacarpal_joint", "right_thumb_proximal_joint",
  "right_index_proximal_joint", "right_index_distal_joint",
  "right_middle_proximal_joint", "right_middle_distal_joint",
  "right_ring_proximal_joint", "right_ring_distal_joint",
  "right_pinky_proximal_joint", "right_pinky_distal_joint"]

structure JointCmdPublisher (D : Type) where
  currentPos : StdMap D
  currentReceived : Bool
  targetMap : StdMap D
  duration : D
  hold : Bool
  zero : Bool
  startTime : Option Int
  startPos : StdMap D
  done : Bool

namespace JointCmdPublisher

variable {D : Type}

/-- `__init__`. -/
def init (targetMap : StdMap D) (duration : D) (hold zero : Bool) :
    JointCmdPublisher D where
  currentPos := ∅
  currentReceived := false
  targetMap := targetMap
  duration := duration
  hold := hold
  zero := zero
  startTime := none
  startPos := ∅
  done := false

/-- `_js_cb`: pairs of a name and a position, as many as both lists
have. -/
def jsCb (self : JointCmdPublisher D) (name : List String)
    (position : List D) : JointCmdPublisher D :=
  { self with
    currentPos := (name.zip position).foldl
      (fun m p => m.insert p.1 p.2) self.currentPos
    currentReceived := true }

variable [PyFloat D]

/-- `self._current_pos.get(n, 0.0)`. -/
def current (self : JointCmdPublisher D) (n : String) : D :=
  self.currentPos[n]?.getD (PyFloat.lit 0)

/-- The start of the motion, at the first tick after a message: its
time, and the position of every joint to move. -/
def start (self : JointCmdPublisher D) (startReading : Int) :
    JointCmdPublisher D :=
  match self.startTime with
  | none => { self with
      startTime := some startReading
      startPos := self.targetMap.foldl
        (fun m name _ => m.insert name (self.current name))
        self.startPos }
  | some _ => self

/-- `(now - self._start_time).nanoseconds * 1e-9`. -/
def elapsed (startTime now : Int) : D :=
  PyFloat.ofInt (now - startTime) * PyFloat.lit (1 / 10 ^ 9)

/-- `t * t * (3.0 - 2.0 * t)`. -/
def smoothed (t : D) : D :=
  t * t * (PyFloat.lit 3 - PyFloat.lit 2 * t)

/-- The positions of a command, with the elapsed time. -/
def positions (self : JointCmdPublisher D) (elapsed : D) :
    Except PyError (List D) :=
  if self.zero then
    .ok (List.replicate allJoints.length (PyFloat.lit 0))
  else if self.hold then
    .ok (allJoints.map self.current)
  else if PyFloat.ge elapsed self.duration then
    .ok (allJoints.map fun n =>
      self.targetMap[n]?.getD (self.current n))
  else do
    let t ← pyDiv elapsed self.duration
    return allJoints.map fun n =>
      match self.targetMap[n]? with
      | some e =>
          let s := self.startPos[n]?.getD (PyFloat.lit 0)
          s + (e - s) * smoothed t
      | none => self.current n

/-- The target is reached: `_done` is set. -/
def reach (self : JointCmdPublisher D) (elapsed : D) :
    JointCmdPublisher D :=
  if !self.zero && !self.hold && PyFloat.ge elapsed self.duration then
    { self with done := true }
  else self

/-- `_tick`. -/
def tick (self : JointCmdPublisher D) (startReading now : Int) :
    Logged (JointState D) PyError (JointCmdPublisher D) :=
  if !self.currentReceived then pure self
  else do
    let self := self.start startReading
    let elapsed := elapsed (self.startTime.getD startReading) now
    let position ← self.positions elapsed
    Logged.emit {
      name := allJoints
      position
      velocity := List.replicate allJoints.length (PyFloat.lit 0)
      effort := List.replicate allJoints.length (PyFloat.lit 0) }
    return self.reach elapsed

/-- What the node is called back for. -/
inductive Event (D : Type)
  | jointState (name : List String) (position : List D)
  /-- The clock's readings, if the tick takes them. -/
  | tick (startReading now : Int)

/-- One callback. -/
def step (self : JointCmdPublisher D) :
    Event D → Logged (JointState D) PyError (JointCmdPublisher D)
  | .jointState name position => pure (self.jsCb name position)
  | .tick startReading now => self.tick startReading now

/-- `rclpy.spin`. -/
def run (self : JointCmdPublisher D) (events : List (Event D)) :
    Logged (JointState D) PyError (JointCmdPublisher D) :=
  Logged.run step self events

end JointCmdPublisher

end RlDeploy
