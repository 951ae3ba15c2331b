/-
Whether a loaded model and its configuration fit each other.

# Two sizes

A model declares the width of its observation input and of its action
output, which `loadModel` reads. The converter has its own: an
observation of `obsLength` values, from the joint count and the
estimator flag, and an action for each of its joints. The joint count
comes from the YAML file or the metadata, so the two sizes have nothing
in common, and `loadConfig` compares neither.

# What a run hands over

The dry run takes as many zeros as the model declares. Every control
tick takes as many values as the converter has, and every inference
gives as many actions as the model declares (`step_sizes`). So a pair
that fits runs with matching sizes forever, and one that does not fit
shows it by the first command at the latest.
-/
import RlDeploy.Load.Config
import RlDeploy.Node.Proofs.Steady

namespace RlDeploy

open Lib

variable {F D : Type} [Scalar F D]

-- ============================================================ the model

/-- The session declares the fixed shapes `[1, o]` for its first input
and `[1, a]` for its first output, and a run for the declared outputs
that returns gives a first tensor of the declared shape. -/
structure Session.Fixed (s : Session F) (o a : Nat) : Prop where
  input : ∃ name rest, s.inputs = (name, [1, (o : Int)]) :: rest
  output : ∃ name rest, s.outputs = (name, [1, (a : Int)]) :: rest
  run : ∀ names values outs,
    s.run names values (s.outputs.map Prod.fst) = .ok outs →
      ∃ data rest, outs = .tensor [1, (a : Int)] data :: rest
        ∧ data.length = a

namespace OnnxInfer

variable {ort : OnnxRuntime F} {infer : OnnxInfer F} {o a : Nat}

omit [Scalar F D] in
/-- What a loaded model is made of. -/
theorem loadModel_ok {path : String} {parseMeta : Bool}
    (h : loadModel ort path parseMeta = .ok (some infer)) :
    firstSize infer.session.inputs = .ok infer.obsSize
      ∧ firstSize infer.session.outputs = .ok infer.actionSize
      ∧ infer.inputNames = infer.session.inputs.map Prod.fst
      ∧ infer.outputNames = infer.session.outputs.map Prod.fst := by
  unfold loadModel at h
  split at h
  next loaded hload =>
    cases h
    unfold tryLoadModel at hload
    simp only [bind_eq_ok_iff] at hload
    obtain ⟨session, -, obsSize, hobs, actionSize, hact, hload⟩ := hload
    -- with metadata or without, the members read so far are the same
    split at hload
    · obtain ⟨_, -, hload⟩ := bind_eq_ok_iff.mp hload
      cases hload
      exact ⟨hobs, hact, rfl, rfl⟩
    · obtain ⟨_, -, hload⟩ := bind_eq_ok_iff.mp hload
      cases hload
      exact ⟨hobs, hact, rfl, rfl⟩
  next => cases h
  next => cases h

omit [Scalar F D] in
/-- `loadModel` reads the declared widths. -/
theorem loadModel_sizes {path : String} {parseMeta : Bool}
    (h : loadModel ort path parseMeta = .ok (some infer))
    (hs : infer.session.Fixed o a) :
    infer.obsSize = o ∧ infer.actionSize = a := by
  obtain ⟨hobs, hact, -⟩ := loadModel_ok h
  obtain ⟨_, _, hin⟩ := hs.input
  obtain ⟨_, _, hout⟩ := hs.output
  rw [hin] at hobs
  rw [hout] at hact
  exact ⟨(Except.ok.inj hobs).symm, (Except.ok.inj hact).symm⟩

omit [Scalar F D] in
/-- The first output of the declared shape is taken whole. -/
theorem extract_first {data : List F} {rest : List (OrtValue F)}
    (hdata : data.length = a) :
    extract (.tensor [1, (a : Int)] data :: rest) 0 [1] = .ok data := by
  have hcount : (0 : Int) ≤ [(a : Int)].prod
      ∧ [(a : Int)].prod ≤ data.length := by
    rw [List.prod_singleton]
    omega
  have htake : data.take [(a : Int)].prod.toNat = data := by
    rw [List.prod_singleton, Int.toNat_natCast, ← hdata, List.take_length]
  have hdims : [1].mapM (read (Fault.index .shape) [1, (a : Int)])
      = .ok [(a : Int)] := rfl
  unfold extract
  rw [List.getElem?_cons_zero]
  dsimp only
  rw [hdims, ok_bind, if_pos hcount, htake]
  rfl

/-- An inference gives as many actions as the model declares. -/
theorem infer_actions
    (hnames : infer.outputNames = infer.session.outputs.map Prod.fst)
    (hs : infer.session.Fixed o a) {obs : List F} {t : Int}
    {r : InferenceResult F} (h : infer.infer ort obs t = .ok r) :
    r.actions.length = a := by
  unfold OnnxInfer.infer at h
  rw [hnames] at h
  simp only [bind_eq_ok_iff] at h
  obtain ⟨_, -, _, -, _, -, outs, hrun, actions, hact, _, -, _, -, _, -,
    _, -, h⟩ := h
  cases h
  obtain ⟨data, rest, rfl, hdata⟩ := hs.run _ _ _ hrun
  rw [extract_first hdata] at hact
  cases hact
  exact hdata

end OnnxInfer

-- ============================================================= one step

/-- The size of an observation. -/
def DataConverter.obsLength (dc : DataConverter F) : Nat :=
  5 * dc.numDof + 3 + dc.anchorLen

theorem DataConverter.SameSetup.obsLength {dc base : DataConverter F}
    (h : dc.SameSetup base) : dc.obsLength = base.obsLength := by
  unfold DataConverter.obsLength DataConverter.anchorLen
  rw [h.numDof, h.cfg]

namespace RLControllerNode

variable [Eigen F]

/-- The sizes a callback hands over: `o` zeros or `l` values to the
model, `a` actions to the converter. -/
def Sizes (o l a : Nat) : Act F D → Prop
  | .infer obs _ => obs = List.replicate o 0 ∨ obs.length = l
  | .process actions => actions.length = a
  | .publish _ => True

variable {net : Policy F} {a : Nat}

/-- A callback hands over these sizes, also one that stops. -/
theorem step_sizes
    (hnet : ∀ obs t r, net.infer obs t = .ok r → r.actions.length = a)
    (n : RLControllerNode F D) (e : Event D) :
    ∀ act ∈ (step net n e).log,
      Sizes net.obsSize n.converter.obsLength a act := by
  cases e with
  | jointState msg => exact List.forall_mem_nil _
  | imu msg => exact List.forall_mem_nil _
  | timer =>
      have hdry : ∀ t, Sizes net.obsSize n.converter.obsLength a
          (Act.infer (List.replicate net.obsSize 0) t : Act F D) :=
        fun _ => Or.inl rfl
      rcases timer_cases net n with ⟨l, n', ht⟩ | ⟨l, f, ht⟩
      · show ∀ act ∈ (n.timerCallback net).log, _
        rw [ht.timerCallback]
        cases ht with
        | waiting => exact List.forall_mem_nil _
        | init _ _ hr =>
            refine List.forall_mem_cons.mpr ⟨hdry _, ?_⟩
            exact List.forall_mem_singleton.mpr (hnet _ _ _ hr)
        | done => exact List.forall_mem_nil _
        | tick _ _ _ ho hr =>
            have hlen := DataConverter.buildObservation_length ho
            refine List.forall_mem_cons.mpr ⟨Or.inr hlen, ?_⟩
            refine List.forall_mem_cons.mpr ⟨hnet _ _ _ hr, ?_⟩
            exact List.forall_mem_singleton.mpr trivial
      · show ∀ act ∈ (n.timerCallback net).log, _
        rw [ht.timerCallback]
        cases ht with
        | initInfer => exact List.forall_mem_singleton.mpr (hdry _)
        | initMotion => exact List.forall_mem_singleton.mpr (hdry _)
        | initProcess _ _ hr =>
            refine List.forall_mem_cons.mpr ⟨hdry _, ?_⟩
            exact List.forall_mem_singleton.mpr (hnet _ _ _ hr)
        | observe => exact List.forall_mem_nil _
        | infer _ _ _ ho =>
            have hlen := DataConverter.buildObservation_length ho
            exact List.forall_mem_singleton.mpr (Or.inr hlen)
        | process _ _ _ ho hr =>
            have hlen := DataConverter.buildObservation_length ho
            refine List.forall_mem_cons.mpr ⟨Or.inr hlen, ?_⟩
            exact List.forall_mem_singleton.mpr (hnet _ _ _ hr)
        | target _ _ _ ho hr =>
            have hlen := DataConverter.buildObservation_length ho
            refine List.forall_mem_cons.mpr ⟨Or.inr hlen, ?_⟩
            exact List.forall_mem_singleton.mpr (hnet _ _ _ hr)

/-- A callback that publishes a command built an observation and
processed the actions for it. -/
theorem step_publish {n : RLControllerNode F D} {e : Event D}
    {cmd : JointState D} (h : Act.publish cmd ∈ (step net n e).log) :
    (∃ obs t, Act.infer obs t ∈ (step net n e).log
        ∧ obs.length = n.converter.obsLength)
      ∧ ∃ actions, Act.process actions ∈ (step net n e).log
        ∧ n.converter.numDof ≤ actions.length := by
  cases e with
  | jointState msg => cases h
  | imu msg => cases h
  | timer =>
      have hpub : published (n.timerCallback net).log ≠ [] := by
        intro hnil
        unfold published at hnil
        have hmem := List.filterMap_eq_nil_iff.mp hnil _ h
        cases hmem
      obtain ⟨n', hout⟩ := publish_tick hpub
      have ht := timerStep_of_ok hout
      change Act.publish cmd ∈ (n.timerCallback net).log at h
      show (∃ obs t, _ ∈ (n.timerCallback net).log ∧ _)
        ∧ ∃ actions, _ ∈ (n.timerCallback net).log ∧ _
      generalize (n.timerCallback net).log = l at ht h
      cases ht with
      | waiting => cases h
      | init => simp at h
      | done => cases h
      | @tick _ _ _ obs r _ _ _ ho _ hp _ =>
          have hproc := DataConverter.processAction_isOk_iff.mp ⟨_, hp⟩
          have hraw := hproc.2.1
          rw [(setup_updateMotion n.converter r).numDof] at hraw
          constructor
          · exact ⟨obs, n.timestep, by simp,
              DataConverter.buildObservation_length ho⟩
          · exact ⟨r.actions, by simp, hraw⟩

-- ========================================================= every run

/-- A run hands over the sizes its first node has. -/
theorem run_sizes
    (hnet : ∀ obs t r, net.infer obs t = .ok r → r.actions.length = a)
    (node : RLControllerNode F D) (evs : List (Event D)) :
    ∀ act ∈ (run net node evs).log,
      Sizes net.obsSize node.converter.obsLength a act := by
  apply Logged.run_log (fun n => n.converter.SameSetup node.converter)
  · intro n e hn
    rw [← hn.obsLength]
    exact step_sizes hnet n e
  · intro n e n' hn hout
    exact (step_setup hout).trans hn
  · exact .refl _

/-- A run that publishes a command has built an observation and
processed the actions for it. -/
theorem run_publish {node : RLControllerNode F D} {evs : List (Event D)}
    (h : published (run net node evs).log ≠ []) :
    (∃ obs t, Act.infer obs t ∈ (run net node evs).log
        ∧ obs.length = node.converter.obsLength)
      ∧ ∃ actions, Act.process actions ∈ (run net node evs).log
        ∧ node.converter.numDof ≤ actions.length := by
  obtain ⟨cmd, hcmd⟩ := List.exists_mem_of_ne_nil _ h
  obtain ⟨act, hmem, hact⟩ := List.mem_filterMap.mp hcmd
  cases act with
  | infer => cases hact
  | process => cases hact
  | publish c =>
      obtain ⟨pre, e, n, hpre, hin, hsub⟩ := Logged.mem_run_log hmem
      have hset := run_setup hpre
      obtain ⟨⟨obs, t, hi, hlen⟩, actions, hp, hwide⟩ := step_publish hin
      rw [hset.obsLength] at hlen
      rw [hset.numDof] at hwide
      exact ⟨⟨obs, t, hsub _ hi, hlen⟩, actions, hsub _ hp, hwide⟩

/-- The sizes a run of a loaded node should hand over: observations of
the model's size, and an action for each joint. -/
structure SizesMatch (infer : OnnxInfer F) (node : RLControllerNode F D)
    (log : List (Act F D)) : Prop where
  observations : ∀ obs t, Act.infer obs t ∈ log →
    (obs.length : Int) = infer.obsSize
  actions : ∀ actions, Act.process actions ∈ log →
    node.converter.numDof ≤ actions.length

/-- The model's sizes fit the configuration. -/
def Fits (infer : OnnxInfer F) (node : RLControllerNode F D) : Prop :=
  infer.obsSize = node.converter.obsLength
    ∧ (node.converter.numDof : Int) ≤ infer.actionSize

omit [Eigen F] in
/-- A loaded node has a loaded model. -/
theorem loadConfig_ok {y : YamlCpp F} {ort : OnnxRuntime F}
    {path : String} {infer : OnnxInfer F} {node : RLControllerNode F D}
    (h : loadConfig y ort path = .ok (some (infer, node))) :
    ∃ modelPath,
      OnnxInfer.loadModel ort modelPath true = .ok (some infer) := by
  unfold loadConfig at h
  split at h
  next loaded hload =>
    cases h
    unfold tryLoadConfig at hload
    simp only [bind_eq_ok_iff] at hload
    obtain ⟨root, -, modelPath, -, _, -, found, hmodel, hload⟩ := hload
    cases found with
    | none => cases hload
    | some infer' =>
        obtain ⟨node', -, hload⟩ := bind_eq_ok_iff.mp hload
        cases hload
        exact ⟨modelPath, hmodel⟩
  next => cases h
  next => cases h

/-- What every run of every accepted model and configuration hands over:
the dry run's zeros or `obsLength` values to the model, `actionSize`
actions to the converter. So the sizes match throughout when the pair
fits, and only then once a command is published. -/
theorem loaded_sizes {y : YamlCpp F} {ort : OnnxRuntime F}
    {path : String} {infer : OnnxInfer F} {node : RLControllerNode F D}
    (h : loadConfig y ort path = .ok (some (infer, node))) {o a : Nat}
    (hs : infer.session.Fixed o a) (evs : List (Event D)) :
    (∀ obs t, Act.infer obs t ∈ (run (infer.policy ort) node evs).log →
        obs = List.replicate o 0
          ∨ obs.length = node.converter.obsLength)
      ∧ (∀ actions,
        Act.process actions ∈ (run (infer.policy ort) node evs).log →
          actions.length = a)
      ∧ (Fits infer node →
        SizesMatch infer node (run (infer.policy ort) node evs).log)
      ∧ (published (run (infer.policy ort) node evs).log ≠ [] →
        SizesMatch infer node (run (infer.policy ort) node evs).log →
        Fits infer node) := by
  obtain ⟨modelPath, hmodel⟩ := loadConfig_ok h
  obtain ⟨hobs, hact⟩ := OnnxInfer.loadModel_sizes hmodel hs
  obtain ⟨-, -, -, hnames⟩ := OnnxInfer.loadModel_ok hmodel
  have hnet : ∀ obs t r, (infer.policy ort).infer obs t = .ok r →
      r.actions.length = a :=
    fun _ _ _ hr => OnnxInfer.infer_actions hnames hs hr
  have ho : (infer.policy ort).obsSize = o := by
    show infer.obsSize.toNat = o
    rw [hobs, Int.toNat_natCast]
  have hall := run_sizes hnet node evs
  rw [ho] at hall
  refine ⟨fun obs t hmem => hall _ hmem, fun actions hmem => hall _ hmem,
    ?_, ?_⟩
  · intro ⟨hfit, hwide⟩
    constructor
    · intro obs t hmem
      rcases hall _ hmem with rfl | hlen
      · rw [List.length_replicate, hobs]
      · rw [hlen, hfit]
    · intro actions hmem
      have hlen : actions.length = a := hall _ hmem
      omega
  · intro hpub hmatch
    obtain ⟨⟨obs, t, hi, hlen⟩, actions, hp, hwide⟩ := run_publish hpub
    have hobs' := hmatch.observations obs t hi
    have hlen' : actions.length = a := hall _ hp
    constructor
    · rw [← hobs', hlen]
    · rw [hact]
      omega

-- ============================================================ instances

/-- A session with an observation input of width `o` and an action output
of width two, which always answers zeros. -/
def twoActionSession (o : Nat) : Session ℚ where
  inputs := [("obs", [1, (o : Int)]), ("time_step", [1, 1])]
  outputs := [("actions", [1, 2])]
  metadata := [("joint_names", "hip,knee")]
  run _ _ _ := .ok [.tensor [1, 2] [0, 0]]

/-- A runtime with that session. A tensor is made of the first values of
the buffer, when there are enough. -/
def twoActionOrt (o : Nat) : OnnxRuntime ℚ where
  openSession _ := .ok (twoActionSession o)
  createTensor data shape :=
    if shape.prod ≤ data.length then
      .ok (.tensor shape (data.take shape.prod.toNat))
    else .error (.throw .ort)
  stof _ := .error (.throw .stof)

theorem twoActionSession_fixed (o : Nat) :
    (twoActionSession o).Fixed o 2 where
  input := ⟨_, _, rfl⟩
  output := ⟨_, _, rfl⟩
  run := by
    intro names values outs hrun
    cases hrun
    exact ⟨[0, 0], [], rfl, rfl⟩

/-- A configuration file that names a model and the joints of the robot;
its reader knows no numbers. -/
def modelFile : YamlCpp ℚ where
  loadFile _ := .ok (.map [(.scalar "model_path", .scalar "policy.onnx"),
    (.scalar "robot_joint_names", .seq [.scalar "hip", .scalar "knee"])])
  asString
    | .scalar text => .ok text
    | _ => .error (.throw .yaml)
  asFloat _ := .error (.throw .yaml)
  asInt _ := .error (.throw .yaml)
  asBool _ := .error (.throw .yaml)

theorem loaded_sizes_two :
    ∃ infer node,
      loadConfig modelFile (twoActionOrt 19) "rl_config.yaml"
        = .ok (some (infer, node))
      ∧ Fits infer node
      ∧ SizesMatch infer node
        (run (infer.policy (twoActionOrt 19)) node twoReady).log := by
  obtain ⟨infer, node, h⟩ : ∃ infer node,
      loadConfig modelFile (twoActionOrt 19) "rl_config.yaml"
        = .ok (some (infer, node)) := ⟨_, _, rfl⟩
  have hs : infer.session.Fixed 19 2 := by
    cases h
    exact twoActionSession_fixed 19
  have hfit : Fits infer node := by
    cases h
    exact ⟨rfl, by decide +kernel⟩
  obtain ⟨-, -, hmatch, -⟩ := loaded_sizes h hs twoReady
  exact ⟨infer, node, h, hfit, hmatch hfit⟩

/-- A model of ten observation values is accepted for two joints, and is
handed nineteen. -/
theorem narrow_model_accepted :
    ∃ infer node,
      loadConfig modelFile (twoActionOrt 10) "rl_config.yaml"
        = .ok (some (infer, node))
      ∧ infer.session.Fixed 10 2
      ∧ infer.obsSize = 10
      ∧ ∃ obs t, Act.infer obs t
          ∈ (run (infer.policy (twoActionOrt 10)) node twoReady).log
        ∧ obs.length = 19 := by
  refine ⟨_, _, rfl, twoActionSession_fixed 10, rfl, ?_⟩
  exact ⟨_, 0, List.mem_cons_of_mem _ (List.mem_cons_of_mem _
    (List.mem_cons_self ..)), rfl⟩

end RLControllerNode

end RlDeploy
