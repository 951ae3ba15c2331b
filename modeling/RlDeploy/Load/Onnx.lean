/-
`class OnnxInfer` (`onnx_infer.hpp`, `onnx_infer.cpp`): loading a model,
its metadata, and inference.

ONNX Runtime is not part of the repository beyond its headers. What the
source asks of it is a parameter (`OnnxRuntime`): opening a model file,
which gives a session with declared inputs, outputs and metadata, making
a tensor of a buffer and a shape, and running the session. `std::stof`
is a parameter too, a partial function on strings.

The source indexes shapes and tensor data without a check, and lets
`Run` take two names off the vector of input names; an index past the
end of either is a fault.
-/
import RlDeploy.Node.Basic

namespace RlDeploy

open Lib

variable {F D : Type} [Scalar F D]

/-- `Ort::Value`: a tensor of floats, or a value of another kind. -/
inductive OrtValue (F : Type)
  | tensor (shape : List Int) (data : List F)
  | other

/-- `Ort::Session`, as the source uses it. -/
structure Session (F : Type) where
  /-- Names and declared shapes of the inputs. -/
  inputs : List (String × List Int)
  /-- Names and declared shapes of the outputs. -/
  outputs : List (String × List Int)
  /-- The custom metadata map, key by key. -/
  metadata : List (String × String)
  /-- `Run`: input names and values, output names. -/
  run : List String → List (OrtValue F) → List String →
    Except Fault (List (OrtValue F))

/-- What the source uses of ONNX Runtime and of the standard library's
number parsing. -/
structure OnnxRuntime (F : Type) where
  /-- The `Ort::Session` constructor, on a model path. -/
  openSession : String → Except Fault (Session F)
  /-- `Ort::Value::CreateTensor`, on a buffer and a shape. -/
  createTensor : List F → List Int → Except Fault (OrtValue F)
  /-- `std::stof`. -/
  stof : String → Except Fault F

-- ============================================================ metadata

/-- `struct ModelMeta`. -/
structure ModelMeta (F : Type) where
  jointNames : List String := []
  defaultJointPos : List F := []
  stiffness : List F := []
  damping : List F := []
  actionScales : List F := []
  anchorBodyName : String := ""
  bodyNames : List String := []

namespace ModelMeta

omit [Scalar F D]

def numDof (m : ModelMeta F) : Nat := m.jointNames.length

def valid (m : ModelMeta F) : Bool := decide (0 < m.numDof)

end ModelMeta

/-- The loop of `std::getline(ss, item, ',')`, with the characters of the
current item in reverse: an item ends at a comma, the last one also at
the end of the text, unless it is empty there. -/
def getlineLoop : List Char → List Char → List (List Char)
  | item, [] => if item.isEmpty then [] else [item.reverse]
  | item, c :: cs =>
      if c = ',' then item.reverse :: getlineLoop [] cs
      else getlineLoop (c :: item) cs

/-- `parseStringList`. -/
def parseStringList (s : String) : List String :=
  (getlineLoop [] s.toList).map String.ofList

/-- `parseFloatList`. -/
def parseFloatList (ort : OnnxRuntime F) (s : String) :
    Except Fault (List F) :=
  (parseStringList s).mapM ort.stof

/-- The loop of `parseFloatList` as it runs: each item is converted as
soon as it is read. -/
def floatLoop (ort : OnnxRuntime F) :
    List Char → List Char → Except Fault (List F)
  | item, [] =>
      if item.isEmpty then .ok []
      else do
        let v ← ort.stof (String.ofList item.reverse)
        return [v]
  | item, c :: cs =>
      if c = ',' then do
        let v ← ort.stof (String.ofList item.reverse)
        let vs ← floatLoop ort [] cs
        return v :: vs
      else floatLoop ort (c :: item) cs

namespace ModelMeta

/-- A list field: parsed from its metadata text, unless that is empty. -/
def floatField (ort : OnnxRuntime F) (text : String) :
    Except Fault (List F) :=
  if text.isEmpty then .ok [] else parseFloatList ort text

def stringField (text : String) : List String :=
  if text.isEmpty then [] else parseStringList text

omit [Scalar F D] in
/-- `parseModelMeta`, on the metadata of a session. -/
def parse (ort : OnnxRuntime F) (metadata : List (String × String)) :
    Except Fault (ModelMeta F) := do
  let metaMap : StdMap String :=
    metadata.foldl (fun m (key, val) => m.insert key val) ∅
  let get := fun (k : String) => metaMap[k]?.getD ""
  let jointNames := stringField (get "joint_names")
  let defaultJointPos ← floatField ort (get "default_joint_pos")
  let stiffness ← floatField ort (get "joint_stiffness")
  let damping ← floatField ort (get "joint_damping")
  let actionScales ← floatField ort (get "action_scale")
  return {
    jointNames, defaultJointPos, stiffness, damping, actionScales
    bodyNames := stringField (get "body_names")
    anchorBodyName := get "anchor_body_name" }

end ModelMeta

-- =========================================================== the class

/-- `OnnxInfer` with a loaded session. -/
structure OnnxInfer (F : Type) where
  session : Session F
  inputNames : List String
  outputNames : List String
  obsSize : Int
  actionSize : Int
  modelMeta : ModelMeta F

namespace OnnxInfer

omit [Scalar F D] in
/-- The second dimension of the first declared shape, and `0` when
nothing is declared. -/
def firstSize (declared : List (String × List Int)) :
    Except Fault Int :=
  match declared with
  | [] => .ok 0
  | (_, shape) :: _ => read (.index .shape) shape 1

omit [Scalar F D] in
/-- `loadModel` inside its `try` block. -/
def tryLoadModel (ort : OnnxRuntime F) (modelPath : String)
    (parseMeta : Bool) : Except Fault (OnnxInfer F) := do
  let session ← ort.openSession modelPath
  let obsSize ← firstSize session.inputs
  let actionSize ← firstSize session.outputs
  let modelMeta ←
    if parseMeta then ModelMeta.parse ort session.metadata else pure {}
  return {
    session, obsSize, actionSize, modelMeta
    inputNames := session.inputs.map Prod.fst
    outputNames := session.outputs.map Prod.fst }

omit [Scalar F D] in
/-- `loadModel`: an `Ort::Exception` makes it return `false`, any other
passes. -/
def loadModel (ort : OnnxRuntime F) (modelPath : String)
    (parseMeta : Bool) : Except Fault (Option (OnnxInfer F)) :=
  match tryLoadModel ort modelPath parseMeta with
  | .ok infer => .ok (some infer)
  | .error (.throw .ort) => .ok none
  | .error e => .error e

omit [Scalar F D] in
/-- The entries of output `i`, as many as the product of the dimensions
`dims` of its shape; none when there is no such tensor. -/
def extract (outputs : List (OrtValue F)) (i : Nat) (dims : List Nat) :
    Except Fault (List F) :=
  match outputs[i]? with
  | some (.tensor shape data) => do
      let sizes ← dims.mapM (read (.index .shape) shape)
      let count := sizes.prod
      if 0 ≤ count ∧ count ≤ data.length then
        return data.take count.toNat
      else .error (.index .tensorData)
  | some .other => .ok []
  | none => .ok []

/-- `infer`. The runtime gets the pointer to the input names and the
number of values, which is two, and reads as many names. -/
def infer (ort : OnnxRuntime F) (self : OnnxInfer F)
    (observation : List F) (timestep : Int) :
    Except Fault (InferenceResult F) := do
  let obs ← ort.createTensor observation [1, self.obsSize]
  let ts ← ort.createTensor [Scalar.ofRat (timestep : ℚ)] [1, 1]
  let names ← tabulate 2 (read (.index .inputNames) self.inputNames)
  let outputs ← self.session.run names [obs, ts] self.outputNames
  let actions ← extract outputs 0 [1]
  let jointPos ← extract outputs 1 [1]
  let jointVel ← extract outputs 2 [1]
  let bodyPosW ← extract outputs 3 [1, 2]
  let bodyQuatW ← extract outputs 4 [1, 2]
  return { actions, jointPos, jointVel, bodyPosW, bodyQuatW }

/-- What the node calls of it. -/
def policy (ort : OnnxRuntime F) (self : OnnxInfer F) : Policy F where
  obsSize := self.obsSize.toNat
  infer := self.infer ort

end OnnxInfer

end RlDeploy
