/-
The YAML files of the deployment, and `configureFromYaml`
(`data_converter.cpp`).

`yaml-cpp` is not part of the repository. A loaded document is a tree of
nodes (`Yaml`); reading a file and converting a scalar are parameters
(`YamlCpp`), and what `operator[]`, `size()` and the conversion to a
vector do on each kind of node follows the library's documentation. A
conversion that fails throws.
-/
import RlDeploy.Converter.Basic

namespace RlDeploy

open Lib

variable {F D : Type} [Scalar F D]

/-- `YAML::Node` of a loaded document. -/
inductive Yaml
  | null
  | scalar (text : String)
  | seq (items : List Yaml)
  | map (entries : List (Yaml × Yaml))

/-- What the source uses of `yaml-cpp`: `LoadFile` and the conversions
of a node to a string, a float, an integer and a truth value. -/
structure YamlCpp (F : Type) where
  loadFile : String → Except Fault Yaml
  asString : Yaml → Except Fault String
  asFloat : Yaml → Except Fault F
  asInt : Yaml → Except Fault Int
  asBool : Yaml → Except Fault Bool

namespace Yaml

/-- The key of an entry is the scalar `k`. -/
def isKey (k : String) : Yaml → Bool
  | scalar text => text == k
  | _ => false

/-- `root[k]`: the value of the first entry with that key, if there is
one. A scalar has no subscript. -/
def get (root : Yaml) (k : String) : Except Fault (Option Yaml) :=
  match root with
  | map entries => .ok ((entries.find? fun e => e.1.isKey k).map Prod.snd)
  | scalar _ => .error (.throw .yaml)
  | null | seq _ => .ok none

/-- `node.size()`. -/
def size : Yaml → Nat
  | seq items => items.length
  | map entries => entries.length
  | null | scalar _ => 0

/-- `node.as<std::vector<T>>()`. -/
def asVector {α : Type} (as : Yaml → Except Fault α) :
    Yaml → Except Fault (List α)
  | seq items => items.mapM as
  | _ => .error (.throw .yaml)

/-- `if (root[k]) x = root[k].as<T>()`, for the old value `x`. -/
def override {α : Type} (root : Yaml) (k : String)
    (as : Yaml → Except Fault α) (x : α) : Except Fault α := do
  match ← root.get k with
  | some node => as node
  | none => return x

end Yaml

/-- The loop over `joint_name_map`: its entries, as strings. -/
def nameMapLoop (y : YamlCpp F) :
    Yaml → StdMap String → Except Fault (StdMap String)
  | .map entries, m => entries.foldlM (fun m (key, value) => do
      let wireName ← y.asString key
      let modelName ← y.asString value
      return m.insert wireName modelName) m
  | .seq (_ :: _), _ => .error (.throw .yaml)
  | .seq [], m | .null, m | .scalar _, m => .ok m

/-- The fallback of an empty per-joint list. -/
def orConstant (n : Nat) (c : F) (xs : List F) : List F :=
  if xs.isEmpty then List.replicate n c else xs

namespace DataConverter

/-- The configuration `configureFromYaml` starts from: the metadata's
lists when it names a joint. -/
def fromMetadata (modelMeta : BeyondMimicConfig F) :
    BeyondMimicConfig F :=
  if 0 < modelMeta.numDof then
    { BeyondMimicConfig.init with
      jointNames := modelMeta.jointNames
      defaultDofPos := modelMeta.defaultDofPos
      kp := modelMeta.kp
      kd := modelMeta.kd
      actionScales := modelMeta.actionScales
      bodyNames := modelMeta.bodyNames
      anchorBodyName := modelMeta.anchorBodyName }
  else BeyondMimicConfig.init

/-- The entries of `joint_name_map`, added to the ones there are. -/
def overrideNameMap (y : YamlCpp F) (root : Yaml) (m : StdMap String) :
    Except Fault (StdMap String) := do
  match ← root.get "joint_name_map" with
  | some node => nameMapLoop y node m
  | none => return m

/-- The override of `action_scales`, which an empty node does not
make. -/
def overrideActionScales (y : YamlCpp F) (root : Yaml) (xs : List F) :
    Except Fault (List F) := do
  match ← root.get "action_scales" with
  | some node => if 0 < node.size then node.asVector y.asFloat else return xs
  | none => return xs

/-- The configuration `configureFromYaml` ends up with. -/
def resolve (y : YamlCpp F) (root : Yaml)
    (modelMeta : BeyondMimicConfig F) :
    Except Fault (BeyondMimicConfig F) := do
  let cfg := fromMetadata modelMeta
  let robotJointNames ← root.override "robot_joint_names"
    (Yaml.asVector y.asString) cfg.robotJointNames
  let jointNameMap ← overrideNameMap y root cfg.jointNameMap
  let jointNames ← root.override "joint_names"
    (Yaml.asVector y.asString) cfg.jointNames
  let defaultDofPos ← root.override "default_dof_pos"
    (Yaml.asVector y.asFloat) cfg.defaultDofPos
  let kp ← root.override "kp" (Yaml.asVector y.asFloat) cfg.kp
  let kd ← root.override "kd" (Yaml.asVector y.asFloat) cfg.kd
  let actionScales ← overrideActionScales y root cfg.actionScales
  let bodyNames ← root.override "body_names"
    (Yaml.asVector y.asString) cfg.bodyNames
  let anchorBodyName ← root.override "anchor_body_name"
    y.asString cfg.anchorBodyName
  let withoutStateEstimator ← root.override "without_state_estimator"
    y.asBool cfg.withoutStateEstimator
  let useMotionFromModel ← root.override "use_motion_from_model"
    y.asBool cfg.useMotionFromModel
  let useResidualAction ← root.override "use_residual_action"
    y.asBool cfg.useResidualAction
  let overrideRobotAnchorPos ← root.override "override_robot_anchor_pos"
    y.asBool cfg.overrideRobotAnchorPos
  let actionBeta ← root.override "action_beta" y.asFloat cfg.actionBeta
  let clipActions ← root.override "clip_actions" y.asFloat
    cfg.clipActions
  let startTimestep ← root.override "start_timestep" y.asInt
    cfg.startTimestep
  let maxTimestep ← root.override "max_timestep" y.asInt cfg.maxTimestep
  let n := jointNames.length
  return {
    jointNames, robotJointNames, jointNameMap, anchorBodyName, bodyNames
    withoutStateEstimator, useMotionFromModel, useResidualAction
    overrideRobotAnchorPos, actionBeta, clipActions
    maxTimestep, startTimestep
    anchorBodyIndex := cfg.anchorBodyIndex
    actionScales := orConstant n (Scalar.ofRat (1 / 4)) actionScales
    defaultDofPos := orConstant n (Scalar.ofRat 0) defaultDofPos
    kp := orConstant n (Scalar.ofRat 100) kp
    kd := orConstant n (Scalar.ofRat 10) kd }

/-- `configureFromYaml`. -/
def configureFromYaml (y : YamlCpp F) (dc : DataConverter F)
    (yamlPath : String) (modelMeta : BeyondMimicConfig F) :
    Except Fault (DataConverter F) := do
  let root ← y.loadFile yamlPath
  let cfg ← resolve y root modelMeta
  return dc.configure cfg

end DataConverter

end RlDeploy
