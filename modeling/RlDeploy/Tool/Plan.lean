/-
The joint test tool as a machine over snapshots.

The tool keeps dictionaries: what was reported, where the motion started,
what the targets are. What it publishes is a list over `ALL_JOINTS`. This
is the machine that has the lists alone: at each tick it is handed what
the known joints were last reported at and the clock's readings
(`views`), and it knows of the command line what concerns the known
joints (`Plan`). It never sees a message.
-/
import RlDeploy.Tool.Proofs.History
import RlDeploy.Lib.Latch

namespace RlDeploy

open Lib

namespace JointCmdPublisher

variable {D : Type}

/-- What has been reported: whether a message has come, and the last
position of each known joint. -/
structure Reported (D : Type) where
  received : Bool
  known : List (Option D)
  deriving DecidableEq, Repr

/-- A message replaces the positions it has; a tick acts on its clock
readings. -/
def split : Event D → (Reported D → Reported D) ⊕ (Int × Int)
  | .jointState name position => .inl fun i =>
      { received := true
        known := List.zipWith
          (fun n old => ((name.zip position).reverse.lookup n).or old)
          allJoints i.known }
  | .tick startReading now => .inr (startReading, now)

/-- Before any message. -/
def unreported : Reported D where
  received := false
  known := allJoints.map fun _ => none

/-- What each tick of a run finds. -/
def views (events : List (Event D)) : List (Reported D × Int × Int) :=
  Latch.snapshots split unreported events

/-- What the known joints are to do. -/
structure Plan (D : Type) where
  targets : List (Option D)
  duration : D
  hold : Bool
  zero : Bool

/-- The plan of a tool. -/
def plan (tool : JointCmdPublisher D) : Plan D where
  targets := allJoints.map (tool.targetMap[·]?)
  duration := tool.duration
  hold := tool.hold
  zero := tool.zero

namespace Plan

variable [PyFloat D]

/-- The positions at the elapsed time, from where the motion started and
where the joints are. -/
def positions (p : Plan D) (origin held : List D) (elapsed : D) :
    Except PyError (List D) :=
  if p.zero then .ok (held.map fun _ => PyFloat.lit 0)
  else if p.hold then .ok held
  else if PyFloat.ge elapsed p.duration then
    .ok (List.zipWith (fun target h => target.getD h) p.targets held)
  else do
    let t ← pyDiv elapsed p.duration
    return List.zipWith
      (fun target (s, h) => match target with
        | some e => s + (e - s) * smoothed t
        | none => h)
      p.targets (origin.zip held)

/-- One tick. The state is the motion, once there is one: its start and
the positions it starts from. -/
def act (p : Plan D) (motion : Option (Int × List D))
    (view : Reported D × Int × Int) :
    Logged (JointState D) PyError (Option (Int × List D)) :=
  if !view.1.received then pure motion
  else do
    let held := view.1.known.map fun v => v.getD (PyFloat.lit 0)
    let (start, origin) := motion.getD (view.2.1, held)
    let position ← p.positions origin held (elapsed start view.2.2)
    Logged.emit (commandOf position)
    return some (start, origin)

/-- The machine over the views of a run. -/
def run (p : Plan D) (vs : List (Reported D × Int × Int)) :
    Logged (JointState D) PyError (Option (Int × List D)) :=
  Logged.run p.act none vs

end Plan

end JointCmdPublisher

end RlDeploy
