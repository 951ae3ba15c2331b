/-
A configuration file that says everything.

What a node does is decided by the configuration it ends up with, in
which the YAML file, the model's metadata and constants meet. Here that
configuration is written out as a file of its own (`spellOut`) and loaded
again, whatever the metadata of the model then says: the node that comes
of it does the same in every run (`spelled_reloads`).

Two halves meet at `Spells`, a description of what a file gives under
each key. A file that spells a configuration out is resolved to it,
whatever there was before (`resolve_spelled`), and `spellOut` writes such
a file (`spellOut_spells`).

The empty `action_scales` cannot be written, since it counts as none. It
does not come up: with a joint, no per-joint list is empty once resolved
(`resolve_ne_nil`). And the name map that is read back is another tree
with the same entries, which only `configure` goes through.
-/
import RlDeploy.Load.Proofs.Resolve
import RlDeploy.Load.Proofs.Safe
import RlDeploy.Node.Proofs.Unread

namespace RlDeploy

open Lib

variable {F D : Type} [Scalar F D]

-- ======================================================== the description

/-- Under the key `k` the file has `v`, whatever there was. -/
def Yaml.Gives {α : Type} (root : Yaml) (k : String)
    (as : Yaml → Except Fault α) (v : α) : Prop :=
  ∀ x, root.override k as x = .ok v

/-- The file spells the configuration out. -/
structure Spells (y : YamlCpp F) (root : Yaml)
    (cfg : BeyondMimicConfig F) : Prop where
  robotJointNames : root.Gives "robot_joint_names"
    (Yaml.asVector y.asString) cfg.robotJointNames
  jointNameMap : DataConverter.overrideNameMap y root ∅
    = .ok cfg.jointNameMap
  jointNames : root.Gives "joint_names" (Yaml.asVector y.asString)
    cfg.jointNames
  defaultDofPos : root.Gives "default_dof_pos" (Yaml.asVector y.asFloat)
    cfg.defaultDofPos
  kp : root.Gives "kp" (Yaml.asVector y.asFloat) cfg.kp
  kd : root.Gives "kd" (Yaml.asVector y.asFloat) cfg.kd
  actionScales : ∀ xs,
    DataConverter.overrideActionScales y root xs = .ok cfg.actionScales
  bodyNames : root.Gives "body_names" (Yaml.asVector y.asString)
    cfg.bodyNames
  anchorBodyName : root.Gives "anchor_body_name" y.asString
    cfg.anchorBodyName
  withoutStateEstimator : root.Gives "without_state_estimator" y.asBool
    cfg.withoutStateEstimator
  useMotionFromModel : root.Gives "use_motion_from_model" y.asBool
    cfg.useMotionFromModel
  useResidualAction : root.Gives "use_residual_action" y.asBool
    cfg.useResidualAction
  overrideRobotAnchorPos : root.Gives "override_robot_anchor_pos" y.asBool
    cfg.overrideRobotAnchorPos
  actionBeta : root.Gives "action_beta" y.asFloat cfg.actionBeta
  clipActions : root.Gives "clip_actions" y.asFloat cfg.clipActions
  startTimestep : root.Gives "start_timestep" y.asInt cfg.startTimestep
  maxTimestep : root.Gives "max_timestep" y.asInt cfg.maxTimestep

/-- No per-joint list is empty. -/
structure BeyondMimicConfig.Filled (cfg : BeyondMimicConfig F) : Prop where
  defaultDofPos : cfg.defaultDofPos ≠ []
  kp : cfg.kp ≠ []
  kd : cfg.kd ≠ []
  actionScales : cfg.actionScales ≠ []

namespace DataConverter

/-- A configuration that is spelled out is what its file is resolved to,
without the metadata. -/
theorem resolve_spelled {y : YamlCpp F} {root : Yaml}
    {cfg : BeyondMimicConfig F} (h : Spells y root cfg) (hf : cfg.Filled)
    (hidx : cfg.anchorBodyIndex = 0) (modelMeta : BeyondMimicConfig F) :
    resolve y root modelMeta = .ok cfg := by
  have hmap : (fromMetadata modelMeta).jointNameMap = ∅ := by
    unfold fromMetadata
    split <;> rfl
  have hanchor : (fromMetadata modelMeta).anchorBodyIndex = 0 := by
    unfold fromMetadata
    split <;> rfl
  unfold resolve
  dsimp only
  rw [hmap, hanchor, h.robotJointNames _, h.jointNameMap,
    h.jointNames _, h.defaultDofPos _, h.kp _, h.kd _, h.actionScales _,
    h.bodyNames _, h.anchorBodyName _, h.withoutStateEstimator _,
    h.useMotionFromModel _, h.useResidualAction _,
    h.overrideRobotAnchorPos _, h.actionBeta _, h.clipActions _,
    h.startTimestep _, h.maxTimestep _]
  simp only [ok_bind, orConstant_of_ne_nil hf.defaultDofPos,
    orConstant_of_ne_nil hf.kp, orConstant_of_ne_nil hf.kd,
    orConstant_of_ne_nil hf.actionScales]
  rw [← hidx]
  rfl

/-- With a joint, every per-joint list has entries once resolved. -/
theorem resolve_filled {y : YamlCpp F} {root : Yaml}
    {modelMeta cfg : BeyondMimicConfig F}
    (h : resolve y root modelMeta = .ok cfg) (hn : cfg.jointNames ≠ []) :
    cfg.Filled := by
  have hfill : ∀ (c : F) (xs : List F),
      orConstant cfg.numDof c xs ≠ [] := by
    intro c xs
    by_cases hxs : xs = []
    · rw [hxs]
      intro hnil
      have hlen : cfg.jointNames.length = 0 :=
        (List.replicate_eq_nil_iff c).mp hnil
      exact hn (List.length_eq_zero_iff.mp hlen)
    · rw [orConstant_of_ne_nil hxs]
      exact hxs
  obtain ⟨d, p, k, a, -, -, -, -, hd, hp, hk, ha⟩ := resolve_vectors h
  refine ⟨?_, ?_, ?_, ?_⟩
  · rw [hd]
    exact hfill _ d
  · rw [hp]
    exact hfill _ p
  · rw [hk]
    exact hfill _ k
  · rw [ha]
    exact hfill _ a

end DataConverter

-- ========================================================== the writer

/-- How values are written. -/
structure YamlText (F : Type) where
  ofString : String → Yaml
  ofFloat : F → Yaml
  ofInt : Int → Yaml
  ofBool : Bool → Yaml

/-- The file that spells a node out: every key that is read, but for the
rate of the timer. -/
def spellOut (w : YamlText F) (modelPath : String)
    (cfg : BeyondMimicConfig F) : Yaml :=
  .map [
    (.scalar "model_path", w.ofString modelPath),
    (.scalar "robot_joint_names",
      .seq (cfg.robotJointNames.map w.ofString)),
    (.scalar "joint_name_map", .map (cfg.jointNameMap.toList.map
      fun e => (w.ofString e.1, w.ofString e.2))),
    (.scalar "joint_names", .seq (cfg.jointNames.map w.ofString)),
    (.scalar "default_dof_pos", .seq (cfg.defaultDofPos.map w.ofFloat)),
    (.scalar "kp", .seq (cfg.kp.map w.ofFloat)),
    (.scalar "kd", .seq (cfg.kd.map w.ofFloat)),
    (.scalar "action_scales", .seq (cfg.actionScales.map w.ofFloat)),
    (.scalar "body_names", .seq (cfg.bodyNames.map w.ofString)),
    (.scalar "anchor_body_name", w.ofString cfg.anchorBodyName),
    (.scalar "without_state_estimator",
      w.ofBool cfg.withoutStateEstimator),
    (.scalar "use_motion_from_model", w.ofBool cfg.useMotionFromModel),
    (.scalar "use_residual_action", w.ofBool cfg.useResidualAction),
    (.scalar "override_robot_anchor_pos",
      w.ofBool cfg.overrideRobotAnchorPos),
    (.scalar "action_beta", w.ofFloat cfg.actionBeta),
    (.scalar "clip_actions", w.ofFloat cfg.clipActions),
    (.scalar "start_timestep", w.ofInt cfg.startTimestep),
    (.scalar "max_timestep", w.ofInt cfg.maxTimestep)]

/-- The floats of a configuration. -/
def BeyondMimicConfig.floats (cfg : BeyondMimicConfig F) : List F :=
  cfg.defaultDofPos ++ cfg.kp ++ cfg.kd ++ cfg.actionScales
    ++ [cfg.actionBeta, cfg.clipActions]

omit [Scalar F D] in
theorem BeyondMimicConfig.mem_floats {cfg : BeyondMimicConfig F} {x : F} :
    x ∈ cfg.floats ↔ x ∈ cfg.defaultDofPos ∨ x ∈ cfg.kp ∨ x ∈ cfg.kd
      ∨ x ∈ cfg.actionScales ∨ x = cfg.actionBeta
      ∨ x = cfg.clipActions := by
  unfold BeyondMimicConfig.floats
  simp only [List.mem_append, List.mem_cons, List.not_mem_nil, or_false,
    or_assoc]

/-- What is written is read back: every string and truth value, and the
numbers of the configuration. -/
structure YamlText.ReadBack (w : YamlText F) (y : YamlCpp F)
    (cfg : BeyondMimicConfig F) : Prop where
  string : ∀ s, y.asString (w.ofString s) = .ok s
  bool : ∀ b, y.asBool (w.ofBool b) = .ok b
  int : ∀ i ∈ [cfg.startTimestep, cfg.maxTimestep],
    y.asInt (w.ofInt i) = .ok i
  float : ∀ x ∈ cfg.floats, y.asFloat (w.ofFloat x) = .ok x

omit [Scalar F D] in
/-- A list that is written entry by entry is read entry by entry. -/
theorem asVector_map {α : Type} {as : Yaml → Except Fault α}
    {write : α → Yaml} {xs : List α}
    (h : ∀ x ∈ xs, as (write x) = .ok x) :
    Yaml.asVector as (.seq (xs.map write)) = .ok xs := by
  show (xs.map write).mapM as = .ok xs
  induction xs with
  | nil => rfl
  | cons x xs ih =>
      rw [List.map_cons, List.mapM_cons, h x List.mem_cons_self, ok_bind,
        ih fun x' hx' => h x' (List.mem_cons_of_mem _ hx')]
      rfl

omit [Scalar F D] in
/-- A name map that is written is read back with the same entries. -/
theorem nameMapLoop_toList {y : YamlCpp F} {w : YamlText F}
    (hstring : ∀ s, y.asString (w.ofString s) = .ok s) (m : StdMap String) :
    ∃ m', nameMapLoop y (.map (m.toList.map
        fun e => (w.ofString e.1, w.ofString e.2))) ∅ = .ok m'
      ∧ m'.toList = m.toList := by
  have hloop : ∀ (l : List (String × String)) (acc : StdMap String),
      nameMapLoop y (.map (l.map
          fun e => (w.ofString e.1, w.ofString e.2))) acc
        = .ok (l.foldl (fun m e => m.insert e.1 e.2) acc) := by
    intro l
    induction l with
    | nil => exact fun _ => rfl
    | cons e l ih =>
        intro acc
        unfold nameMapLoop at ih ⊢
        dsimp only at ih ⊢
        rw [List.map_cons, List.foldlM_cons]
        simp only [hstring, ok_bind, pure_ok]
        exact ih (acc.insert e.1 e.2)
  exact ⟨_, hloop m.toList ∅, insertAll_toList m⟩

omit [Scalar F D] in
theorem Yaml.gives_of_get {α : Type} {root : Yaml} {k : String}
    {as : Yaml → Except Fault α} {node : Yaml} {v : α}
    (hget : root.get k = .ok (some node)) (hv : as node = .ok v) :
    root.Gives k as v := by
  intro x
  unfold override
  rw [hget]
  exact hv

/-- `spellOut` writes a file that spells the configuration out, but for
the tree of its name map and the index that the name of the anchor
stands for. -/
theorem spellOut_spells {y : YamlCpp F} {w : YamlText F}
    {cfg : BeyondMimicConfig F} (modelPath : String)
    (h : w.ReadBack y cfg) (hf : cfg.Filled) :
    ∃ m : StdMap String, m.toList = cfg.jointNameMap.toList
      ∧ Spells y (spellOut w modelPath cfg)
        { cfg with jointNameMap := m, anchorBodyIndex := 0 } := by
  obtain ⟨m, hm, hlist⟩ := nameMapLoop_toList h.string cfg.jointNameMap
  have hstrings : ∀ xs : List String,
      Yaml.asVector y.asString (.seq (xs.map w.ofString)) = .ok xs :=
    fun xs => asVector_map fun s _ => h.string s
  have hfloats : ∀ xs : List F, (∀ x ∈ xs, x ∈ cfg.defaultDofPos
        ∨ x ∈ cfg.kp ∨ x ∈ cfg.kd ∨ x ∈ cfg.actionScales
        ∨ x = cfg.actionBeta ∨ x = cfg.clipActions) →
      Yaml.asVector y.asFloat (.seq (xs.map w.ofFloat)) = .ok xs :=
    fun xs hxs => asVector_map fun x hx =>
      h.float x (BeyondMimicConfig.mem_floats.mpr (hxs x hx))
  refine ⟨m, hlist, ?_⟩
  constructor
  case robotJointNames => exact Yaml.gives_of_get rfl (hstrings _)
  case jointNameMap => exact hm
  case jointNames => exact Yaml.gives_of_get rfl (hstrings _)
  case defaultDofPos =>
    exact Yaml.gives_of_get rfl (hfloats _ fun x hx => by simp [hx])
  case kp =>
    exact Yaml.gives_of_get rfl (hfloats _ fun x hx => by simp [hx])
  case kd =>
    exact Yaml.gives_of_get rfl (hfloats _ fun x hx => by simp [hx])
  case actionScales =>
    intro xs
    have hread : Yaml.asVector y.asFloat
        (.seq (cfg.actionScales.map w.ofFloat)) = .ok cfg.actionScales :=
      hfloats _ fun x hx => by simp [hx]
    have hsize : 0 < (Yaml.seq (cfg.actionScales.map w.ofFloat)).size := by
      show 0 < (cfg.actionScales.map w.ofFloat).length
      rw [List.length_map]
      exact List.length_pos_of_ne_nil hf.actionScales
    have hget : (spellOut w modelPath cfg).get "action_scales"
        = .ok (some (.seq (cfg.actionScales.map w.ofFloat))) := rfl
    unfold DataConverter.overrideActionScales
    rw [hget, ok_bind]
    dsimp only
    rw [if_pos hsize]
    exact hread
  case bodyNames => exact Yaml.gives_of_get rfl (hstrings _)
  case anchorBodyName => exact Yaml.gives_of_get rfl (h.string _)
  case withoutStateEstimator => exact Yaml.gives_of_get rfl (h.bool _)
  case useMotionFromModel => exact Yaml.gives_of_get rfl (h.bool _)
  case useResidualAction => exact Yaml.gives_of_get rfl (h.bool _)
  case overrideRobotAnchorPos => exact Yaml.gives_of_get rfl (h.bool _)
  case actionBeta =>
    exact Yaml.gives_of_get rfl
      (h.float _ (BeyondMimicConfig.mem_floats.mpr (by simp)))
  case clipActions =>
    exact Yaml.gives_of_get rfl
      (h.float _ (BeyondMimicConfig.mem_floats.mpr (by simp)))
  case startTimestep => exact Yaml.gives_of_get rfl (h.int _ (by simp))
  case maxTimestep => exact Yaml.gives_of_get rfl (h.int _ (by simp))

-- =========================================================== the reload

/-- `configure` reads of the name map its entries, and no index. -/
theorem DataConverter.configure_withUnread
    (cfg u : BeyondMimicConfig F) (i : Int)
    (hanchor : u.anchorBodyName = cfg.anchorBodyName)
    (hmap : u.jointNameMap.toList = cfg.jointNameMap.toList) :
    DataConverter.init.configure
        { cfg.withUnread u with anchorBodyIndex := i }
      = (DataConverter.init.configure cfg).withUnread u := by
  have hset : BeyondMimicConfig.setAnchorBodyIndex
        { cfg.withUnread u with anchorBodyIndex := i }
      = cfg.setAnchorBodyIndex.withUnread u := by
    have hfind : (cfg.withUnread u).bodyNames.findIdx?
          (· == (cfg.withUnread u).anchorBodyName)
        = cfg.bodyNames.findIdx? (· == cfg.anchorBodyName) := by
      show cfg.bodyNames.findIdx? (· == u.anchorBodyName) = _
      rw [hanchor]
    unfold BeyondMimicConfig.setAnchorBodyIndex
    dsimp only
    rw [hfind]
    cases cfg.bodyNames.findIdx? (· == cfg.anchorBodyName) with
    | none => rfl
    | some k => rfl
  have hnames : cfg.setAnchorBodyIndex.jointNameMap
      = cfg.jointNameMap := by
    unfold BeyondMimicConfig.setAnchorBodyIndex
    split <;> rfl
  have hinvert : ∀ acc : StdMap String,
      u.jointNameMap.foldl
          (fun m wireName modelName => m.insert modelName wireName) acc
        = cfg.setAnchorBodyIndex.jointNameMap.foldl
          (fun m wireName modelName => m.insert modelName wireName)
          acc := by
    intro acc
    rw [hnames, Std.TreeMap.foldl_eq_foldl_toList,
      Std.TreeMap.foldl_eq_foldl_toList, hmap]
  unfold DataConverter.configure
  dsimp only
  rw [hset]
  by_cases hrobot : cfg.setAnchorBodyIndex.robotJointNames.isEmpty = true
  · rw [if_pos hrobot]
    exact if_pos hrobot
  · rw [if_neg hrobot, ← hinvert]
    exact if_neg hrobot

namespace RLControllerNode

/-- Loading the file that a configuration is spelled out in gives a node
that differs in what no callback reads. -/
theorem loadConfig_spelled {y : YamlCpp F} {ort : OnnxRuntime F}
    {path model : String} {infer : OnnxInfer F} {w : YamlText F}
    {cfg : BeyondMimicConfig F}
    (hfile : y.loadFile path = .ok (spellOut w model cfg))
    (hread : w.ReadBack y cfg) (hf : cfg.Filled)
    (hmodel : OnnxInfer.loadModel ort model true = .ok (some infer)) :
    ∃ u : BeyondMimicConfig F, loadConfig y ort path
      = .ok (some (infer, (start cfg cfg.startTimestep
        cfg.maxTimestep : RLControllerNode F D).withUnread u)) := by
  obtain ⟨m, hm, hs⟩ := spellOut_spells model hread hf
  let u : BeyondMimicConfig F :=
    { cfg with jointNameMap := m, anchorBodyIndex := 0 }
  have hconverter : DataConverter.configureFromYaml y DataConverter.init
      path (metadataConfig infer.modelMeta)
        = .ok ((DataConverter.init.configure cfg).withUnread u) := by
    rw [← DataConverter.configure_withUnread cfg u 0 rfl hm]
    unfold DataConverter.configureFromYaml
    rw [hfile, ok_bind, DataConverter.resolve_spelled hs
      ⟨hf.defaultDofPos, hf.kp, hf.kd, hf.actionScales⟩ rfl]
    rfl
  have hnode : configureNode y (spellOut w model cfg) path infer.modelMeta
      = .ok ((start cfg cfg.startTimestep
        cfg.maxTimestep : RLControllerNode F D).withUnread u) := by
    unfold configureNode
    rw [hconverter, ok_bind, hs.maxTimestep _, ok_bind,
      hs.startTimestep _]
    rfl
  have hpath : modelPath y (spellOut w model cfg) = .ok model :=
    hread.string model
  have hrate : (spellOut w model cfg).override "control_hz" y.asInt 50
      = .ok 50 := rfl
  have htry : tryLoadConfig y ort path
      = .ok (some (infer, (start cfg cfg.startTimestep
        cfg.maxTimestep : RLControllerNode F D).withUnread u)) := by
    unfold tryLoadConfig
    rw [hfile, ok_bind, hpath, ok_bind, hrate, ok_bind, hmodel, ok_bind]
    dsimp only
    rw [hnode]
    rfl
  refine ⟨u, ?_⟩
  unfold loadConfig
  rw [htry]

/-- The configuration that a node was loaded with, spelled out in a file
of its own and loaded with a model of any metadata, gives a node that
does the same in every run, whatever network it is run with. -/
theorem spelled_reloads [Eigen F] {y y' : YamlCpp F}
    {ort ort' : OnnxRuntime F} {path path' model : String}
    {infer infer' : OnnxInfer F} {node : RLControllerNode F D}
    {w : YamlText F} (h : loadConfig y ort path = .ok (some (infer, node)))
    (hn : node.converter.cfg.jointNames ≠ [])
    (hfile : y'.loadFile path'
      = .ok (spellOut w model node.converter.cfg))
    (hread : w.ReadBack y' node.converter.cfg)
    (hmodel : OnnxInfer.loadModel ort' model true = .ok (some infer')) :
    ∃ node' : RLControllerNode F D,
      loadConfig y' ort' path' = .ok (some (infer', node'))
        ∧ ∀ (net : Policy F) (evs : List (Event D)),
          (run net node' evs).log = (run net node evs).log
            ∧ ((∃ e, (run net node evs).out = .error e
                ∧ (run net node' evs).out = .error e)
              ∨ ∃ n n', (run net node evs).out = .ok n
                ∧ (run net node' evs).out = .ok n') := by
  obtain ⟨root, modelMeta, cfg, hres, rfl⟩ := loaded_start h
  obtain ⟨k, hk⟩ := (DataConverter.configure_sound cfg).setup.config
  have hconv : (start cfg cfg.startTimestep cfg.maxTimestep :
      RLControllerNode F D).converter.cfg
        = { cfg with anchorBodyIndex := k } := hk
  rw [hconv] at hn hfile hread
  -- the file does not mention the index
  have hfile' : y'.loadFile path' = .ok (spellOut w model cfg) := hfile
  have hread' : w.ReadBack y' cfg :=
    ⟨hread.string, hread.bool, hread.int, hread.float⟩
  obtain ⟨u, hload⟩ := loadConfig_spelled (D := D) hfile' hread'
    (DataConverter.resolve_filled hres hn) hmodel
  refine ⟨_, hload, ?_⟩
  intro net evs
  obtain ⟨hlog, hout⟩ := run_withUnread net u
    (start cfg cfg.startTimestep cfg.maxTimestep) evs
  rw [List.map_id] at hlog
  refine ⟨hlog, ?_⟩
  rcases hout with herr | ⟨n, n', hn, hn', -⟩
  · exact Or.inl herr
  · exact Or.inr ⟨n, n', hn, hn'⟩

/-- The numbers of a small file, as they are written. -/
def numerals : List (String × ℚ) :=
  [("0", 0), ("0.25", 1 / 4), ("1", 1), ("10", 10), ("100", 100)]

def plainText : YamlText ℚ where
  ofString := .scalar
  ofFloat x :=
    .scalar (((numerals.find? fun e => e.2 = x).map Prod.fst).getD "")
  ofInt i := .scalar (toString i)
  ofBool b := .scalar (if b then "true" else "false")

/-- A reader of such files, at the one that spells `cfg` out. -/
def spelledFile (cfg : BeyondMimicConfig ℚ) : YamlCpp ℚ where
  loadFile _ := .ok (spellOut plainText "policy.onnx" cfg)
  asString := modelFile.asString
  asFloat
    | .scalar text => match numerals.lookup text with
      | some x => .ok x
      | none => .error (.throw .yaml)
    | _ => .error (.throw .yaml)
  asInt
    | .scalar "0" => .ok 0
    | .scalar "-1" => .ok (-1)
    | _ => .error (.throw .yaml)
  asBool
    | .scalar "true" => .ok true
    | .scalar "false" => .ok false
    | _ => .error (.throw .yaml)

/-- A model whose metadata names other joints. -/
def renamedOrt : OnnxRuntime ℚ :=
  { twoActionOrt 19 with
    openSession := fun _ => .ok { twoActionSession 19 with
      metadata := [("joint_names", "waist,neck,head")] } }

theorem spelled_reloads_renamed :
    ∃ infer node infer' node',
      loadConfig modelFile (twoActionOrt 19) "rl_config.yaml"
          = .ok (some (infer, node))
        ∧ loadConfig (spelledFile node.converter.cfg) renamedOrt
          "spelled.yaml" = .ok (some (infer', node'))
        ∧ infer'.modelMeta.jointNames ≠ infer.modelMeta.jointNames
        ∧ ∀ (net : Policy ℚ) (evs : List (Event ℚ)),
          (run net node' evs).log = (run net node evs).log := by
  obtain ⟨infer, node, h⟩ : ∃ infer node,
      loadConfig modelFile (twoActionOrt 19) "rl_config.yaml"
        = .ok (some (infer, node)) := ⟨_, _, rfl⟩
  obtain ⟨infer', hmodel⟩ : ∃ infer',
      OnnxInfer.loadModel renamedOrt "policy.onnx" true
        = .ok (some infer') := ⟨_, rfl⟩
  have hn : node.converter.cfg.jointNames ≠ [] := by
    cases h
    decide +kernel
  have hread : plainText.ReadBack (spelledFile node.converter.cfg)
      node.converter.cfg := by
    constructor
    case string => exact fun _ => rfl
    case bool =>
      intro b
      cases b <;> rfl
    case int =>
      cases h
      intro i hi
      have hi' : i ∈ [(0 : Int), -1] := hi
      simp only [List.mem_cons, List.not_mem_nil, or_false] at hi'
      rcases hi' with rfl | rfl <;> rfl
    case float =>
      cases h
      intro x hx
      have hlookup : ∀ x ∈ [(0 : ℚ), 0, 100, 100, 10, 10, 1 / 4, 1 / 4, 1,
          100], numerals.lookup (((numerals.find? fun e => e.2 = x).map
            Prod.fst).getD "") = some x := by decide +kernel
      show (match numerals.lookup (((numerals.find? fun e => e.2 = x).map
          Prod.fst).getD "") with
        | some x => Except.ok x
        | none => .error (Fault.throw .yaml)) = .ok x
      rw [hlookup x hx]
  have hother : infer'.modelMeta.jointNames ≠ infer.modelMeta.jointNames := by
    cases h
    cases hmodel
    decide +kernel
  have hfile : (spelledFile node.converter.cfg).loadFile "spelled.yaml"
      = .ok (spellOut plainText "policy.onnx" node.converter.cfg) := rfl
  obtain ⟨node', hload, hruns⟩ :=
    spelled_reloads h hn hfile hread hmodel
  exact ⟨infer, node, infer', node', h, hload, hother,
    fun net evs => (hruns net evs).1⟩

end RLControllerNode

end RlDeploy
