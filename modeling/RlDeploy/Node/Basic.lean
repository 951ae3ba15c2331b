/-
`class RLControllerNode` (`rl_controller_node.hpp`,
`rl_controller_node.cpp`): three callbacks on one state, as a step
function over events.

`rclcpp::spin` runs one callback at a time, so a run of the node is a
list of events in the order the callbacks are called. A callback logs
what it does outside the converter: the calls of the network, the
actions handed to `processAction` and the published commands. The log
lines of the source are left out.

The network is what the node calls of `OnnxInfer` (`Policy`): its
observation size and `infer`. Results over every model quantify over it.
-/
import RlDeploy.Converter.Basic

namespace RlDeploy

open Lib

variable {F D : Type} [Scalar F D]

/-- `struct InferenceResult`: the outputs of one inference call. -/
structure InferenceResult (F : Type) where
  actions : List F := []
  jointPos : List F := []
  jointVel : List F := []
  bodyPosW : List F := []
  bodyQuatW : List F := []
  deriving DecidableEq, Repr

/-- The motion command the callbacks make of a result. -/
def InferenceResult.motion (r : InferenceResult F) : MotionCommand F :=
  ⟨r.jointPos, r.jointVel, r.bodyPosW, r.bodyQuatW⟩

/-- What the node uses of its `OnnxInfer`. -/
structure Policy (F : Type) where
  obsSize : Nat
  infer : List F → Int → Except Fault (InferenceResult F)

/-- A model that is a function of its two inputs. -/
def Policy.ofFun (obsSize : Nat)
    (f : List F → Int → InferenceResult F) : Policy F where
  obsSize := obsSize
  infer obs timestep := .ok (f obs timestep)

/-- The callbacks, with their messages. -/
inductive Event (D : Type)
  | jointState (msg : JointState D)
  | imu (msg : Imu D)
  | timer

/-- What a callback does outside the node's state. -/
inductive Act (F D : Type)
  | infer (obs : List F) (timestep : Int)
  | process (actions : List F)
  | publish (cmd : JointState D)
  deriving DecidableEq

structure RLControllerNode (F D : Type) where
  converter : DataConverter F
  latestJointState : JointState D
  latestImu : Imu D
  jointReceived : Bool
  imuReceived : Bool
  initialized : Bool
  timestep : Int
  playSpeed : ℚ
  flagMotionDone : Bool
  maxTimestep : Int
  startTimestep : Int

namespace RLControllerNode

/-- The node after `loadConfig` has configured the converter and read
the timesteps. -/
def start (cfg : BeyondMimicConfig F) (startTimestep maxTimestep : Int) :
    RLControllerNode F D where
  converter := DataConverter.init.configure cfg
  latestJointState := {}
  latestImu :=
    { orientation := ⟨Scalar.widen (1 : F), Scalar.zeroD F,
        Scalar.zeroD F, Scalar.zeroD F⟩
      angularVelocity := ⟨Scalar.zeroD F, Scalar.zeroD F,
        Scalar.zeroD F⟩ }
  jointReceived := false
  imuReceived := false
  initialized := false
  timestep := startTimestep
  playSpeed := 1
  flagMotionDone := false
  maxTimestep := maxTimestep
  startTimestep := startTimestep

variable [Eigen F]

/-- `initializeMotion` up to `processAction`: the motion command of the
dry run, and the alignment to its anchor when it has bodies. -/
def initMotion (dc : DataConverter F) (result : InferenceResult F) :
    Except Fault (DataConverter F) :=
  if !result.jointPos.isEmpty then
    let cmd := result.motion
    let dc := dc.setMotionCommand cmd
    if decide (0 < dc.cfg.numBodies) && !cmd.bodyPosW.isEmpty then do
      let anchorPos ← cmd.bodyPos dc.cfg.anchorBodyIndex
      let anchorQuat ← cmd.bodyQuat dc.cfg.anchorBodyIndex
      return { dc with
        initAlign :=
          TransformAlignment.setBase anchorQuat anchorPos true true }
    else
      .ok dc
  else
    .ok dc

def initializeMotion (net : Policy F) (n : RLControllerNode F D) :
    Logged (Act F D) Fault (RLControllerNode F D) := do
  let zeros := List.replicate net.obsSize 0
  Logged.emit (.infer zeros n.timestep)
  let result ← net.infer zeros n.timestep
  let converter ← initMotion n.converter result
  Logged.emit (.process result.actions)
  let (converter, _) ← converter.processAction result.actions
  return { n with converter := converter, initialized := true }

/-- The motion command of a tick's result, kept for the next step; a
result without joint positions leaves the old one. -/
def updateMotion (dc : DataConverter F) (result : InferenceResult F) :
    DataConverter F :=
  if !result.jointPos.isEmpty then dc.setMotionCommand result.motion
  else dc

/-- `static_cast<int64_t>` of a float: truncation. -/
def truncate (q : ℚ) : Int := q.num.tdiv q.den

/-- The end of a tick: the timestep advances, and at the end of the
motion the play speed drops to zero and the done flag is set. -/
def advance (n : RLControllerNode F D) : RLControllerNode F D :=
  let timestep := n.timestep + truncate n.playSpeed
  if 0 < n.maxTimestep ∧ n.maxTimestep ≤ timestep then
    { n with
      timestep := timestep
      playSpeed := 0
      flagMotionDone := true }
  else
    { n with timestep := timestep }

/-- `timerCallback` past its three guards: one control tick. -/
def controlTick (net : Policy F) (n : RLControllerNode F D) :
    Logged (Act F D) Fault (RLControllerNode F D) := do
  let imuQuat : Quat F := n.latestImu.orientation.narrow
  let baseAngVel : Vec3 F := n.latestImu.angularVelocity.narrow
  let obs ← n.converter.buildObservation baseAngVel imuQuat
    n.latestJointState.name n.latestJointState.position
    n.latestJointState.velocity
  Logged.emit (.infer obs n.timestep)
  let result ← net.infer obs n.timestep
  let converter := updateMotion n.converter result
  Logged.emit (.process result.actions)
  let (converter, scaledAction) ← converter.processAction result.actions
  let pdTarget ← converter.computePdTarget scaledAction
  Logged.emit (.publish (converter.actionToJointCmd pdTarget))
  return advance { n with converter := converter }

def timerCallback (net : Policy F) (n : RLControllerNode F D) :
    Logged (Act F D) Fault (RLControllerNode F D) :=
  if !n.jointReceived || !n.imuReceived then return n
  else if !n.initialized then initializeMotion net n
  else if n.flagMotionDone then return n
  else controlTick net n

def jointStateCallback (n : RLControllerNode F D) (msg : JointState D) :
    RLControllerNode F D :=
  { n with latestJointState := msg, jointReceived := true }

def imuCallback (n : RLControllerNode F D) (msg : Imu D) :
    RLControllerNode F D :=
  { n with latestImu := msg, imuReceived := true }

/-- One callback. -/
def step (net : Policy F) (n : RLControllerNode F D) :
    Event D → Logged (Act F D) Fault (RLControllerNode F D)
  | .jointState msg => return n.jointStateCallback msg
  | .imu msg => return n.imuCallback msg
  | .timer => n.timerCallback net

/-- A run of the node. -/
def run (net : Policy F) (n : RLControllerNode F D)
    (evs : List (Event D)) :
    Logged (Act F D) Fault (RLControllerNode F D) :=
  Logged.run (step net) n evs

/-- What the callback of `e` logs when it is the next event after
`evs`; nothing, when the run has already stopped. -/
def logAt (net : Policy F) (n : RLControllerNode F D)
    (evs : List (Event D)) (e : Event D) : List (Act F D) :=
  match (run net n evs).out with
  | .ok n' => (step net n' e).log
  | .error _ => []

/-- The commands among logged actions. -/
def published (log : List (Act F D)) : List (JointState D) :=
  log.filterMap fun
    | .publish cmd => some cmd
    | _ => none

end RLControllerNode

end RlDeploy
