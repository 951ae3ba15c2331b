/-
`BeyondMimicConfig`, `MotionCommand` and `class DataConverter`
(`data_converter.hpp`, `data_converter.cpp`): observations from sensor
messages, joint commands from raw actions.

Each member function is a function of the converter's members; one that
changes them returns the new converter. Reads the source makes without a
bounds check stop with a fault when they leave their vector. Printing to
`std::cout` is left out, and so is the time stamp of a command.

The last section is the class as a state machine: an `Op` is a call a
client can make on a configured converter, `step` its effect with what
it returned as the log, and a run is a sequence of calls. A `Call` is an
`Op` or a `configure`, and a `life` is a sequence of these.
-/
import RlDeploy.Eigen
import RlDeploy.Converter.Adapter
import RlDeploy.Lib.Logged

namespace RlDeploy

open Lib

variable {F D : Type} [Scalar F D]

-- ===================================================== MotionCommand

/-- `struct MotionCommand`: a reference motion frame, fed back as the
command of the next step. -/
structure MotionCommand (F : Type) where
  jointPos : List F := []
  jointVel : List F := []
  bodyPosW : List F := []
  bodyQuatW : List F := []
  deriving DecidableEq, Repr

namespace MotionCommand

omit [Scalar F D]

def bodyPos (c : MotionCommand F) (idx : Int) :
    Except Fault (Vec3 F) := do
  let x ← readInt (.index .bodyPosW) c.bodyPosW (idx * 3)
  let y ← readInt (.index .bodyPosW) c.bodyPosW (idx * 3 + 1)
  let z ← readInt (.index .bodyPosW) c.bodyPosW (idx * 3 + 2)
  return ⟨x, y, z⟩

def bodyQuat (c : MotionCommand F) (idx : Int) :
    Except Fault (Quat F) := do
  let w ← readInt (.index .bodyQuatW) c.bodyQuatW (idx * 4)
  let x ← readInt (.index .bodyQuatW) c.bodyQuatW (idx * 4 + 1)
  let y ← readInt (.index .bodyQuatW) c.bodyQuatW (idx * 4 + 2)
  let z ← readInt (.index .bodyQuatW) c.bodyQuatW (idx * 4 + 3)
  return ⟨w, x, y, z⟩

def empty (c : MotionCommand F) : Bool := c.jointPos.isEmpty

end MotionCommand

-- ================================================= BeyondMimicConfig

structure BeyondMimicConfig (F : Type) where
  jointNames : List String
  defaultDofPos : List F
  kp : List F
  kd : List F
  actionScales : List F
  robotJointNames : List String
  jointNameMap : StdMap String
  anchorBodyName : String
  bodyNames : List String
  anchorBodyIndex : Int
  withoutStateEstimator : Bool
  useMotionFromModel : Bool
  useResidualAction : Bool
  overrideRobotAnchorPos : Bool
  actionBeta : F
  clipActions : F
  maxTimestep : Int
  startTimestep : Int

namespace BeyondMimicConfig

/-- The default-constructed configuration. -/
def init : BeyondMimicConfig F where
  jointNames := []
  defaultDofPos := []
  kp := []
  kd := []
  actionScales := []
  robotJointNames := []
  jointNameMap := ∅
  anchorBodyName := ""
  bodyNames := []
  anchorBodyIndex := 0
  withoutStateEstimator := true
  useMotionFromModel := true
  useResidualAction := false
  overrideRobotAnchorPos := true
  actionBeta := 1
  clipActions := Scalar.ofRat 100
  maxTimestep := -1
  startTimestep := 0

omit [Scalar F D]

def numDof (cfg : BeyondMimicConfig F) : Nat := cfg.jointNames.length

def numBodies (cfg : BeyondMimicConfig F) : Nat := cfg.bodyNames.length

/-- `setAnchorBodyIndex`: the first body of that name, and `0` when no
body has it. -/
def setAnchorBodyIndex (cfg : BeyondMimicConfig F) :
    BeyondMimicConfig F :=
  match cfg.bodyNames.findIdx? (· == cfg.anchorBodyName) with
  | some i => { cfg with anchorBodyIndex := i }
  | none => { cfg with anchorBodyIndex := 0 }

/-- The source's `controlled_names` and `model_names`: the robot's joint
names, or the model's when there are none. -/
def controlledNames (cfg : BeyondMimicConfig F) : List String :=
  if cfg.robotJointNames.isEmpty then cfg.jointNames
  else cfg.robotJointNames

end BeyondMimicConfig

-- ===================================================== DataConverter

structure DataConverter (F : Type) where
  cfg : BeyondMimicConfig F
  command : MotionCommand F
  lastAction : List F
  initAlign : TransformAlignment F
  robot2model : DoFAdapter
  model2robot : DoFAdapter
  modelToRos2Names : StdMap String

namespace DataConverter

/-- The default-constructed converter. -/
def init : DataConverter F where
  cfg := BeyondMimicConfig.init
  command := {}
  lastAction := []
  initAlign := TransformAlignment.init
  robot2model := DoFAdapter.init
  model2robot := DoFAdapter.init
  modelToRos2Names := ∅

def numDof (dc : DataConverter F) : Nat := dc.cfg.numDof

/-- `configure`. Without robot joint names the adapters and the reverse
name map stay as they were; with them the adapters are rebuilt and the
reverse map's entries are added to the ones it has. -/
def configure (dc : DataConverter F) (cfg : BeyondMimicConfig F) :
    DataConverter F :=
  let cfg' := cfg.setAnchorBodyIndex
  let dc := { dc with
    cfg := cfg'
    lastAction := List.replicate cfg.numDof 0 }
  if cfg'.robotJointNames.isEmpty then dc
  else { dc with
    robot2model := DoFAdapter.build cfg'.controlledNames cfg'.jointNames ∅
    model2robot := DoFAdapter.build cfg'.jointNames cfg'.controlledNames ∅
    modelToRos2Names := cfg'.jointNameMap.foldl
      (fun m wireName modelName => m.insert modelName wireName)
      dc.modelToRos2Names }

def setMotionCommand (dc : DataConverter F) (cmd : MotionCommand F) :
    DataConverter F :=
  { dc with command := cmd }

/-- The wire name of a model name: the reverse map's, else itself. -/
def wireName (dc : DataConverter F) (modelName : String) : String :=
  match dc.modelToRos2Names[modelName]? with
  | some w => w
  | none => modelName

-- -------------------------------------------------- buildObservation

/-- One entry of `dof_pos_ctrl` / `dof_vel_ctrl`: the message's value at
the last index of the joint's wire name, and `0` when the message has no
such name or its array ends before. -/
def controlledEntry (dc : DataConverter F) (wireNameToIdx : StdMap Nat)
    (data : List D) (modelName : String) : F :=
  match wireNameToIdx[dc.wireName modelName]? with
  | some src =>
      match data[src]? with
      | some v => Scalar.narrow v
      | none => 0
  | none => 0

/-- `dof_pos_ctrl` / `dof_vel_ctrl`: the controlled joints' values. -/
def controlledVals (dc : DataConverter F) (jointNames : List String)
    (data : List D) : List F :=
  let wireNameToIdx : StdMap Nat := indexMap compare jointNames
  dc.cfg.controlledNames.map (dc.controlledEntry wireNameToIdx data)

/-- Block 1: the reference joint positions and velocities. -/
def commandBlock (dc : DataConverter F) : Except Fault (List F) :=
  if dc.command.empty then
    .ok (List.replicate (dc.numDof * 2) 0)
  else do
    let pos ← tabulate dc.numDof (read (.index .jointPos) dc.command.jointPos)
    let vel ← tabulate dc.numDof (read (.index .jointVel) dc.command.jointVel)
    return pos ++ vel

/-- Block 2: the anchor's pose relative to the robot's. -/
def anchorBlock [Eigen F] (dc : DataConverter F) (imuQuat : Quat F) :
    Except Fault (List F) :=
  if !dc.command.empty && decide (0 < dc.cfg.numBodies)
      && decide (0 ≤ dc.cfg.anchorBodyIndex) then do
    let anchorPosW ← dc.command.bodyPos dc.cfg.anchorBodyIndex
    let anchorQuatW ← dc.command.bodyQuat dc.cfg.anchorBodyIndex
    let (anchorQuatW, anchorPosW) :=
      dc.initAlign.alignTransform anchorQuatW anchorPosW
    let robotAnchorPos :=
      if dc.cfg.overrideRobotAnchorPos then anchorPosW else Vec3.zero
    let (relPos, relQuat) :=
      subtractFrameTransforms robotAnchorPos imuQuat anchorPosW anchorQuatW
    let mat := matrixFromQuat relQuat
    return (if dc.cfg.withoutStateEstimator then []
        else [relPos.x, relPos.y, relPos.z])
      ++ [mat.row0.x, mat.row0.y, mat.row1.x, mat.row1.y,
        mat.row2.x, mat.row2.y]
  else
    .ok ((if dc.cfg.withoutStateEstimator then []
        else List.replicate 3 0) ++ List.replicate 6 0)

/-- `buildObservation`. It changes no member. -/
def buildObservation [Eigen F] (dc : DataConverter F)
    (baseAngVel : Vec3 F) (imuQuat : Quat F) (jointNames : List String)
    (dofPos dofVel : List D) : Except Fault (List F) := do
  let n := dc.numDof
  let dofPosModel ← dc.robot2model.fit (dc.controlledVals jointNames dofPos)
  let dofVelModel ← dc.robot2model.fit (dc.controlledVals jointNames dofVel)
  let command ← dc.commandBlock
  let anchor ← dc.anchorBlock imuQuat
  let relPos ← tabulate n (read₂ (.index .dofPosModel)
    (.index .defaultDofPos) (fun p d => p - d) dofPosModel
    dc.cfg.defaultDofPos)
  let vel ← tabulate n (read (.index .dofVelModel) dofVelModel)
  let last ← tabulate n (read (.index .lastAction) dc.lastAction)
  return command ++ anchor ++ [baseAngVel.x, baseAngVel.y, baseAngVel.z]
    ++ relPos ++ vel ++ last

-- ------------------------------------ processAction, computePdTarget

/-- The smoothing loop of `processAction`. -/
def smooth (dc : DataConverter F) (rawAction : List F) :
    Except Fault (List F) :=
  tabulate dc.numDof (read₂ (.index .lastAction) (.index .rawAction)
    (fun l r => (1 - dc.cfg.actionBeta) * l + dc.cfg.actionBeta * r)
    dc.lastAction rawAction)

/-- `processAction`: the clipped and scaled action is returned, the
smoothed one before clipping is remembered. -/
def processAction (dc : DataConverter F) (rawAction : List F) :
    Except Fault (DataConverter F × List F) := do
  let smoothed ← dc.smooth rawAction
  let clip := dc.cfg.clipActions
  let scaled ← tabulate dc.numDof (read₂ (.index .smoothed)
    (.index .actionScales) (fun a k => clamp a (-clip) clip * k)
    smoothed dc.cfg.actionScales)
  return ({ dc with lastAction := smoothed }, scaled)

/-- The target loop of `computePdTarget`, in model order. -/
def targetModel (dc : DataConverter F) (scaledAction : List F) :
    Except Fault (List F) :=
  if dc.cfg.useResidualAction && !dc.command.empty then
    tabulate dc.numDof (read₂ (.index .scaledAction) (.index .jointPos)
      (fun s p => s + p) scaledAction dc.command.jointPos)
  else
    tabulate dc.numDof (read₂ (.index .defaultDofPos)
      (.index .scaledAction) (fun d s => d + s) dc.cfg.defaultDofPos
      scaledAction)

def computePdTarget (dc : DataConverter F) (scaledAction : List F) :
    Except Fault (List F) := do
  let target ← dc.targetModel scaledAction
  if dc.cfg.robotJointNames.isEmpty then
    return target
  else
    dc.model2robot.fit target

/-- `actionToJointCmd`: as many joints as both the target and the name
list have. -/
def actionToJointCmd (dc : DataConverter F) (pdTarget : List F) :
    JointState D :=
  let joints := pdTarget.zip dc.cfg.controlledNames
  { name := joints.map fun (_, modelName) => dc.wireName modelName
    position := joints.map fun (v, _) => Scalar.widen v
    velocity := joints.map fun _ => Scalar.zeroD F
    effort := joints.map fun _ => Scalar.zeroD F }

-- ------------------------------------------------- the state machine

/-- A call on a configured converter. -/
inductive Op (F D : Type)
  | setMotionCommand (cmd : MotionCommand F)
  | setBase (quat : Quat F) (pos : Vec3 F) (yawOnly xyOnly : Bool)
  | buildObservation (baseAngVel : Vec3 F) (imuQuat : Quat F)
      (jointNames : List String) (dofPos dofVel : List D)
  | processAction (rawAction : List F)
  | computePdTarget (scaledAction : List F)
  | actionToJointCmd (pdTarget : List F)

/-- What a call returns to its caller. -/
inductive Out (F D : Type)
  | observation (obs : List F)
  | scaled (action : List F)
  | target (pdTarget : List F)
  | command (cmd : JointState D)
  deriving DecidableEq

/-- One call: the new converter, and the returned value as the log. -/
def step [Eigen F] (dc : DataConverter F) :
    Op F D → Logged (Out F D) Fault (DataConverter F)
  | .setMotionCommand cmd => pure (dc.setMotionCommand cmd)
  | .setBase quat pos yawOnly xyOnly =>
      pure { dc with
        initAlign := TransformAlignment.setBase quat pos yawOnly xyOnly }
  | .buildObservation w q names pos vel => do
      let obs ← dc.buildObservation w q names pos vel
      Logged.emit (.observation obs)
      return dc
  | .processAction raw => do
      let (dc', scaled) ← dc.processAction raw
      Logged.emit (.scaled scaled)
      return dc'
  | .computePdTarget scaled => do
      let target ← dc.computePdTarget scaled
      Logged.emit (.target target)
      return dc
  | .actionToJointCmd pdTarget => do
      Logged.emit (.command (dc.actionToJointCmd pdTarget))
      return dc

/-- A sequence of calls. -/
def run [Eigen F] (dc : DataConverter F) (ops : List (Op F D)) :
    Logged (Out F D) Fault (DataConverter F) :=
  Logged.run step dc ops

/-- A call on a converter, configured or not. -/
inductive Call (F D : Type)
  | configure (cfg : BeyondMimicConfig F)
  | op (op : Op F D)

/-- One call of either kind. -/
def call [Eigen F] (dc : DataConverter F) :
    Call F D → Logged (Out F D) Fault (DataConverter F)
  | .configure cfg => pure (dc.configure cfg)
  | .op op => step dc op

/-- A sequence of calls in which `configure` may come back. -/
def life [Eigen F] (dc : DataConverter F) (calls : List (Call F D)) :
    Logged (Out F D) Fault (DataConverter F) :=
  Logged.run call dc calls

end DataConverter

end RlDeploy
