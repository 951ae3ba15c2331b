/-
`RLControllerNode::loadConfig` (`rl_controller_node.cpp`): from a
configuration file to a node that is ready to spin.

The file is read here and once more by `configureFromYaml`; it is taken
to be the same both times. Every exception makes the function return
`false`, which ends the program.
-/
import RlDeploy.Load.Yaml
import RlDeploy.Load.Onnx

namespace RlDeploy

open Lib

variable {F D : Type} [Scalar F D]

namespace RLControllerNode

/-- The configuration that the model's metadata gives. -/
def metadataConfig (m : ModelMeta F) : BeyondMimicConfig F :=
  if m.valid then
    { BeyondMimicConfig.init with
      jointNames := m.jointNames
      defaultDofPos := m.defaultJointPos
      actionScales := m.actionScales
      kp := m.stiffness
      kd := m.damping
      bodyNames := m.bodyNames
      anchorBodyName := m.anchorBodyName }
  else BeyondMimicConfig.init

/-- `root["model_path"].as<std::string>()`. -/
def modelPath (y : YamlCpp F) (root : Yaml) : Except Fault String := do
  match ← root.get "model_path" with
  | some node => y.asString node
  | none => .error (.throw .yaml)

/-- `loadConfig` inside its `try` block, once the model is loaded. -/
def configureNode (y : YamlCpp F) (root : Yaml) (configPath : String)
    (m : ModelMeta F) : Except Fault (RLControllerNode F D) := do
  let converter ← DataConverter.configureFromYaml y DataConverter.init
    configPath (metadataConfig m)
  let maxTimestep ← root.override "max_timestep" y.asInt (-1)
  let startTimestep ← root.override "start_timestep" y.asInt 0
  let node : RLControllerNode F D :=
    start BeyondMimicConfig.init startTimestep maxTimestep
  return { node with converter := converter }

/-- `loadConfig` inside its `try` block. -/
def tryLoadConfig (y : YamlCpp F) (ort : OnnxRuntime F)
    (configPath : String) :
    Except Fault (Option (OnnxInfer F × RLControllerNode F D)) := do
  let root ← y.loadFile configPath
  let path ← modelPath y root
  let _controlHz ← root.override "control_hz" y.asInt 50
  match ← OnnxInfer.loadModel ort path true with
  | none => return none
  | some infer =>
      let node ← configureNode y root configPath infer.modelMeta
      return some (infer, node)

/-- `loadConfig`, with the node when it returns `true`. -/
def loadConfig (y : YamlCpp F) (ort : OnnxRuntime F)
    (configPath : String) :
    Except Fault (Option (OnnxInfer F × RLControllerNode F D)) :=
  match tryLoadConfig y ort configPath with
  | .ok loaded => .ok loaded
  | .error (.throw _) => .ok none
  | .error (.index v) => .error (.index v)

end RLControllerNode

end RlDeploy
