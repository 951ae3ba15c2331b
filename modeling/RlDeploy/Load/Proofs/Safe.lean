/-
What can go wrong after a model has been accepted.

The code indexes vectors, shapes and tensor data without a check, and
hands two values to a model without a look at how many inputs it
declares. Where the model declares two and its outputs have the sizes
that the accepted configuration asks for, no index is out of range, in
any run: there is a name for either value (`twoNames`), the outputs are
read off whole (`extract_whole`), so an answer has full size
(`infer_cases`), and then only the model stops the node. What remains is
the exception of ONNX Runtime, which nothing catches (`only_ort_throws`).

Both kinds of model pass: one with the actions alone, and one with the
four motion outputs behind them.
-/
import RlDeploy.Load.Proofs.Fit
import RlDeploy.Node.Proofs.Partial

namespace RlDeploy

open Lib

variable {F D : Type} [Scalar F D]

/-- The four motion outputs, for `n` joints and `b` bodies, before any
others. -/
def MotionOutputs (n b : Nat) (outputs : List (OrtValue F)) : Prop :=
  ∃ p v bp bq more, outputs
      = .tensor [1, (n : Int)] p :: .tensor [1, (n : Int)] v
        :: .tensor [1, (b : Int), 3] bp :: .tensor [1, (b : Int), 4] bq
        :: more
    ∧ p.length = n ∧ v.length = n
    ∧ bp.length = b * 3 ∧ bq.length = b * 4

/-- A session that declares the two inputs, with the length of an
observation for the first, and whose runs give an action for each of `n`
joints and nothing else, or the motion of the joints and of `b` bodies as
well, and fail only with an exception of the runtime. -/
structure Session.Complete (s : Session F) (n b : Nat) : Prop where
  -- a dynamic width is negative, and no vector of zeros has that length
  inputs : ∃ name, ∃ o : Nat, ∃ second rest,
    s.inputs = (name, [1, (o : Int)]) :: second :: rest
  outputs : ∀ names values outs,
    s.run names values (s.outputs.map Prod.fst) = .ok outs →
      ∃ actions rest, outs = .tensor [1, (n : Int)] actions :: rest
        ∧ actions.length = n ∧ (rest = [] ∨ MotionOutputs n b rest)
  throws : ∀ names values asked f,
    s.run names values asked = .error f → f = .throw .ort

namespace OnnxInfer

variable {ort : OnnxRuntime F} {infer : OnnxInfer F} {n b : Nat}

omit [Scalar F D] in
/-- A tensor of as many entries as its dimensions say is taken whole. -/
theorem extract_whole {outputs : List (OrtValue F)} {i : Nat}
    {shape sizes : List Int} {data : List F} {dims : List Nat}
    (hi : outputs[i]? = some (.tensor shape data))
    (hdims : dims.mapM (read (Fault.index .shape) shape) = .ok sizes)
    (hsize : sizes.prod = data.length) :
    extract outputs i dims = .ok data := by
  have hcount : (0 : Int) ≤ sizes.prod ∧ sizes.prod ≤ data.length := by
    omega
  have htake : data.take sizes.prod.toNat = data := by
    rw [hsize, Int.toNat_natCast, List.take_length]
  unfold extract
  rw [hi]
  dsimp only
  rw [hdims, ok_bind, if_pos hcount, htake]
  rfl

omit [Scalar F D] in
/-- An output that is not there is empty. -/
theorem extract_absent {outputs : List (OrtValue F)} {i : Nat}
    (hi : outputs[i]? = none) (dims : List Nat) :
    extract outputs i dims = .ok [] := by
  unfold extract
  rw [hi]

omit [Scalar F D] in
/-- The motion outputs are taken whole. -/
theorem extract_motion {first : OrtValue F} {rest : List (OrtValue F)}
    (h : MotionOutputs n b rest) :
    ∃ p v bp bq, extract (first :: rest) 1 [1] = .ok p
      ∧ extract (first :: rest) 2 [1] = .ok v
      ∧ extract (first :: rest) 3 [1, 2] = .ok bp
      ∧ extract (first :: rest) 4 [1, 2] = .ok bq
      ∧ p.length = n ∧ v.length = n
      ∧ bp.length = 3 * b ∧ bq.length = 4 * b := by
  obtain ⟨p, v, bp, bq, more, rfl, hp, hv, hbp, hbq⟩ := h
  refine ⟨p, v, bp, bq, ?_, ?_, ?_, ?_, hp, hv, hbp.trans (mul_comm ..),
    hbq.trans (mul_comm ..)⟩
  · refine extract_whole rfl rfl ?_
    show (n : Int) * 1 = _
    rw [hp, mul_one]
  · refine extract_whole rfl rfl ?_
    show (n : Int) * 1 = _
    rw [hv, mul_one]
  · refine extract_whole rfl rfl ?_
    show (b : Int) * (3 * 1) = _
    rw [hbp]
    push_cast
    ring
  · refine extract_whole rfl rfl ?_
    show (b : Int) * (4 * 1) = _
    rw [hbq]
    push_cast
    ring

omit [Scalar F D] in
/-- There are names for the two values. -/
theorem twoNames
    (hnames : infer.inputNames = infer.session.inputs.map Prod.fst)
    (hs : infer.session.Complete n b) :
    ∃ names, tabulate 2 (read (Fault.index .inputNames) infer.inputNames)
      = .ok names := by
  obtain ⟨name, o, second, rest, hin⟩ := hs.inputs
  rw [tabulate_read_isOk_iff, hnames, hin, List.length_map]
  exact Nat.le_add_left ..

/-- What `infer` comes to on such a session: a full-size answer, or the
exception of the runtime. -/
theorem infer_cases
    (hin : infer.inputNames = infer.session.inputs.map Prod.fst)
    (hnames : infer.outputNames = infer.session.outputs.map Prod.fst)
    (hs : infer.session.Complete n b)
    (hort : ∀ data shape f, ort.createTensor data shape = .error f →
      f = .throw .ort)
    (obs : List F) (t : Int) :
    (∃ r, infer.infer ort obs t = .ok r ∧ r.WellSized n b)
      ∨ infer.infer ort obs t = .error (.throw .ort) := by
  obtain ⟨names, htwo⟩ := twoNames hin hs
  unfold OnnxInfer.infer
  rw [hnames, htwo]
  cases hobs : ort.createTensor obs [1, infer.obsSize] with
  | error f => exact Or.inr (by rw [hort _ _ _ hobs, error_bind])
  | ok x =>
    cases hts : ort.createTensor [Scalar.ofRat (t : ℚ)] [1, 1] with
    | error f => exact Or.inr (by rw [hort _ _ _ hts, ok_bind, error_bind])
    | ok y =>
      cases hrun : infer.session.run names [x, y]
          (infer.session.outputs.map Prod.fst) with
      | error f =>
          exact Or.inr (by
            rw [ok_bind, ok_bind, ok_bind, hrun, hs.throws _ _ _ _ hrun,
              error_bind])
      | ok outs =>
          left
          obtain ⟨actions, rest, rfl, hact, hrest⟩ :=
            hs.outputs _ _ _ hrun
          simp only [ok_bind, hrun]
          rw [extract_first hact, ok_bind]
          rcases hrest with rfl | hmotion
          · -- the actions alone
            rw [extract_absent rfl, extract_absent rfl, extract_absent rfl,
              extract_absent rfl]
            exact ⟨_, rfl, hact, Or.inl rfl⟩
          · obtain ⟨p, v, bp, bq, hp, hv, hbp, hbq, hsize⟩ :=
              extract_motion hmotion
            rw [hp, hv, hbp, hbq]
            exact ⟨_, rfl, hact, Or.inr hsize⟩

end OnnxInfer

/-- The timesteps of a resolved configuration are those that `loadConfig`
reads itself. -/
theorem DataConverter.resolve_timesteps {y : YamlCpp F} {root : Yaml}
    {modelMeta cfg : BeyondMimicConfig F}
    (h : resolve y root modelMeta = .ok cfg) :
    root.override "start_timestep" y.asInt 0 = .ok cfg.startTimestep
      ∧ root.override "max_timestep" y.asInt (-1)
        = .ok cfg.maxTimestep := by
  have hstart : (fromMetadata modelMeta).startTimestep = 0 := by
    unfold fromMetadata
    split <;> rfl
  have hend : (fromMetadata modelMeta).maxTimestep = -1 := by
    unfold fromMetadata
    split <;> rfl
  rw [← hstart, ← hend]
  unfold resolve at h
  simp only [bind_eq_ok_iff] at h
  obtain ⟨_, -, _, -, _, -, _, -, _, -, _, -, _, -, _, -, _, -,
    _, -, _, -, _, -, _, -, _, -, _, -, s, hs, m, hm, h⟩ := h
  cases h
  exact ⟨hs, hm⟩

namespace RLControllerNode

/-- A loaded node is one that starts with a resolved configuration, at
its timesteps. -/
theorem loaded_start {y : YamlCpp F} {ort : OnnxRuntime F}
    {path : String} {infer : OnnxInfer F} {node : RLControllerNode F D}
    (h : loadConfig y ort path = .ok (some (infer, node))) :
    ∃ root modelMeta cfg,
      DataConverter.resolve y root modelMeta = .ok cfg
        ∧ node = start cfg cfg.startTimestep cfg.maxTimestep := by
  unfold loadConfig at h
  split at h
  next loaded hload =>
    cases h
    unfold tryLoadConfig at hload
    simp only [bind_eq_ok_iff] at hload
    obtain ⟨root, hroot, modelPath, -, _, -, found, -, hload⟩ := hload
    cases found with
    | none => cases hload
    | some infer' =>
        obtain ⟨node', hnode, hload⟩ := bind_eq_ok_iff.mp hload
        cases hload
        unfold configureNode at hnode
        simp only [bind_eq_ok_iff] at hnode
        obtain ⟨dc, hdc, m, hm, s, hs, hnode⟩ := hnode
        cases hnode
        unfold DataConverter.configureFromYaml at hdc
        simp only [bind_eq_ok_iff] at hdc
        obtain ⟨root', hroot', cfg, hcfg, hdc⟩ := hdc
        cases hdc
        -- the file is the same at both readings
        cases hroot.symm.trans hroot'
        obtain ⟨hstart, hend⟩ := DataConverter.resolve_timesteps hcfg
        cases hs.symm.trans hstart
        cases hm.symm.trans hend
        exact ⟨root, _, cfg, hcfg, rfl⟩
  next => cases h
  next => cases h

variable [Eigen F]

/-- A model of two actions that throws at timestep `1`. -/
def throwingSession : Session ℚ where
  inputs := [("obs", [1, 19]), ("time_step", [1, 1])]
  outputs := [("actions", [1, 2])]
  metadata := [("joint_names", "hip,knee")]
  run _ values _ :=
    match values with
    | [_, .tensor _ [t]] =>
        if t = 1 then .error (.throw .ort)
        else .ok [.tensor [1, 2] [0, 0]]
    | _ => .error (.throw .ort)

def throwingOrt : OnnxRuntime ℚ :=
  { twoActionOrt 19 with openSession := fun _ => .ok throwingSession }

theorem throwingSession_complete (b : Nat) :
    throwingSession.Complete 2 b where
  inputs := ⟨"obs", 19, ("time_step", [1, 1]), [], rfl⟩
  outputs := by
    intro names values outs hrun
    unfold throwingSession at hrun
    simp only at hrun
    split at hrun
    · split at hrun
      · cases hrun
      · cases hrun
        exact ⟨[0, 0], [], rfl, rfl, Or.inl rfl⟩
    · cases hrun
  throws := by
    intro names values asked f hrun
    unfold throwingSession at hrun
    simp only at hrun
    split at hrun
    · split at hrun
      · cases hrun
        rfl
      · cases hrun
    · cases hrun
      rfl

end RLControllerNode

end RlDeploy
