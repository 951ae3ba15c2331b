/-
Where the per-joint vectors of a configuration come from, and what their
lengths are good for.

# Resolution

Each of the four vectors has three possible sources: a list in the YAML
file, a list in the model's metadata (when it names a joint), and a
constant for each joint. `Resolved` states the rule. Of an empty YAML
list it says only that without a list in the metadata it is filled up
with the constant. Beside one, it counts as none for `action_scales`,
while for the other three it wins over the metadata and then gives way
to the constant.

# Lengths

`configureFromYaml` looks at emptiness, never at length: a list from
either source keeps its own. Only the constants, and the last action,
have one entry a joint by construction. When the vectors that are
indexed do reach the joint count, no call ever leaves them again,
whatever its arguments (`run_fault`).
-/
import RlDeploy.Load.Yaml
import RlDeploy.Converter.Proofs.Run

namespace RlDeploy

open Lib

variable {F D : Type} [Scalar F D]

-- ========================================================= the overrides

namespace Yaml

omit [Scalar F D] in
/-- An override that returns took the node's value, or had no node. -/
theorem override_ok {α : Type} {root : Yaml} {k : String}
    {as : Yaml → Except Fault α} {x v : α}
    (h : root.override k as x = .ok v) :
    (∃ node, root.get k = .ok (some node) ∧ as node = .ok v)
      ∨ (root.get k = .ok none ∧ v = x) := by
  unfold override at h
  rw [bind_eq_ok_iff] at h
  obtain ⟨found, hget, h⟩ := h
  cases found with
  | some node => exact Or.inl ⟨node, hget, h⟩
  | none =>
      cases h
      exact Or.inr ⟨hget, rfl⟩

end Yaml

/-- The list the YAML file has under a key. -/
def yamlList (y : YamlCpp F) (root : Yaml) (k : String) :
    Option (List F) :=
  match root.get k with
  | .ok (some node) => (node.asVector y.asFloat).toOption
  | _ => none

/-- A list of the metadata, which counts when it names a joint. -/
def metadataList (modelMeta : BeyondMimicConfig F) (xs : List F) :
    List F :=
  if 0 < modelMeta.numDof then xs else []

/-- The rule for one vector of `n` joints: the YAML list, else the
metadata's, else the constant `c`. -/
structure Resolved (yaml : Option (List F)) (metadata : List F) (n : Nat)
    (c : F) (result : List F) : Prop where
  given : ∀ xs, yaml = some xs → xs ≠ [] → result = xs
  inherited : yaml = none → metadata ≠ [] → result = metadata
  filled : yaml = none ∨ yaml = some [] → metadata = [] →
    result = List.replicate n c

section Rule

omit [Scalar F D]

theorem orConstant_of_ne_nil {n : Nat} {c : F} {xs : List F}
    (h : xs ≠ []) : orConstant n c xs = xs := by
  unfold orConstant
  rw [List.isEmpty_eq_false_iff.mpr h]
  rfl

/-- A list of the YAML file, and then the fallback, follow the rule. -/
theorem Resolved.ofYaml {metadata xs : List F} {n : Nat} {c : F} :
    Resolved (some xs) metadata n c (orConstant n c xs) := by
  refine ⟨?_, ?_, ?_⟩
  · intro ys hys hne
    cases hys
    exact orConstant_of_ne_nil hne
  · intro hnone
    cases hnone
  · intro hyaml _
    rcases hyaml with hnone | hnil
    · cases hnone
    · cases hnil
      rfl

/-- So do the metadata's list, and then the fallback. -/
theorem Resolved.ofMetadata {metadata : List F} {n : Nat} {c : F} :
    Resolved none metadata n c (orConstant n c metadata) := by
  refine ⟨?_, ?_, ?_⟩
  · intro ys hys
    cases hys
  · intro _ hne
    exact orConstant_of_ne_nil hne
  · intro _ hnil
    rw [hnil]
    rfl

/-- The override of a vector, and then the fallback, follow the rule. -/
theorem resolved_override {y : YamlCpp F} {root : Yaml} {k : String}
    {metadata result xs : List F} {n : Nat} {c : F}
    (h : root.override k (Yaml.asVector y.asFloat) metadata = .ok xs)
    (hres : result = orConstant n c xs) :
    Resolved (yamlList y root k) metadata n c result := by
  unfold yamlList
  rcases Yaml.override_ok h with ⟨node, hget, has⟩ | ⟨hget, rfl⟩
  · rw [hget, hres]
    dsimp only
    rw [has]
    exact .ofYaml
  · rw [hget, hres]
    exact .ofMetadata

/-- The override of `action_scales` took a list with entries, or found
none. -/
theorem overrideActionScales_ok {y : YamlCpp F} {root : Yaml}
    {metadata xs : List F}
    (h : DataConverter.overrideActionScales y root metadata = .ok xs) :
    (yamlList y root "action_scales" = some xs ∧ xs ≠ [])
      ∨ ((yamlList y root "action_scales" = none
          ∨ yamlList y root "action_scales" = some [])
        ∧ xs = metadata) := by
  unfold DataConverter.overrideActionScales at h
  rw [bind_eq_ok_iff] at h
  obtain ⟨found, hget, h⟩ := h
  unfold yamlList
  rw [hget]
  cases found with
  | none =>
      cases h
      exact Or.inr ⟨Or.inl rfl, rfl⟩
  | some node =>
      dsimp only at h ⊢
      split at h
      next hsize =>
        -- a node with entries that is read as a list is one
        left
        rw [h]
        refine ⟨rfl, fun hnil => ?_⟩
        cases node with
        | null => cases hsize
        | scalar text => cases hsize
        | map entries => cases h
        | seq items =>
            have hlen : xs.length = items.length := mapM_length h
            have hpos : 0 < items.length := hsize
            rw [hnil, List.length_nil] at hlen
            omega
      next hsize =>
        cases h
        refine Or.inr ⟨?_, rfl⟩
        cases node with
        | null => exact Or.inl rfl
        | scalar text => exact Or.inl rfl
        | map entries => exact Or.inl rfl
        | seq items =>
            have hzero : ¬ 0 < items.length := hsize
            have hnil : items = [] := List.length_eq_zero_iff.mp (by omega)
            rw [hnil]
            exact Or.inr rfl

/-- It follows the rule with an empty list as none. -/
theorem resolved_actionScales {y : YamlCpp F} {root : Yaml}
    {metadata result xs : List F} {n : Nat} {c : F}
    (h : DataConverter.overrideActionScales y root metadata = .ok xs)
    (hres : result = orConstant n c xs) :
    Resolved ((yamlList y root "action_scales").filter
        fun ys => !ys.isEmpty)
      metadata n c result := by
  rw [hres]
  rcases overrideActionScales_ok h with ⟨hyaml, hne⟩ | ⟨hyaml, rfl⟩
  · have hkeep : (!xs.isEmpty) = true := by
      rw [List.isEmpty_eq_false_iff.mpr hne]
      rfl
    rw [hyaml, Option.filter_some, if_pos hkeep]
    exact .ofYaml
  · have hnone : (yamlList y root "action_scales").filter
        (fun ys => !ys.isEmpty) = none := by
      rcases hyaml with hyaml | hyaml
      · rw [hyaml]
        rfl
      · rw [hyaml]
        rfl
    rw [hnone]
    exact .ofMetadata

end Rule

-- ==================================================== the whole function

namespace DataConverter

/-- What `resolve` does to the per-joint vectors. -/
theorem resolve_vectors {y : YamlCpp F} {root : Yaml}
    {modelMeta cfg : BeyondMimicConfig F}
    (h : resolve y root modelMeta = .ok cfg) :
    ∃ d p k a,
      root.override "default_dof_pos" (Yaml.asVector y.asFloat)
          (metadataList modelMeta modelMeta.defaultDofPos) = .ok d
        ∧ root.override "kp" (Yaml.asVector y.asFloat)
          (metadataList modelMeta modelMeta.kp) = .ok p
        ∧ root.override "kd" (Yaml.asVector y.asFloat)
          (metadataList modelMeta modelMeta.kd) = .ok k
        ∧ overrideActionScales y root
          (metadataList modelMeta modelMeta.actionScales) = .ok a
        ∧ cfg.defaultDofPos = orConstant cfg.numDof (Scalar.ofRat 0) d
        ∧ cfg.kp = orConstant cfg.numDof (Scalar.ofRat 100) p
        ∧ cfg.kd = orConstant cfg.numDof (Scalar.ofRat 10) k
        ∧ cfg.actionScales
          = orConstant cfg.numDof (Scalar.ofRat (1 / 4)) a := by
  have hmeta : (fromMetadata modelMeta).defaultDofPos
        = metadataList modelMeta modelMeta.defaultDofPos
      ∧ (fromMetadata modelMeta).kp = metadataList modelMeta modelMeta.kp
      ∧ (fromMetadata modelMeta).kd = metadataList modelMeta modelMeta.kd
      ∧ (fromMetadata modelMeta).actionScales
        = metadataList modelMeta modelMeta.actionScales := by
    unfold fromMetadata metadataList
    split <;> exact ⟨rfl, rfl, rfl, rfl⟩
  obtain ⟨hd, hp, hk, ha⟩ := hmeta
  rw [← hd, ← hp, ← hk, ← ha]
  unfold resolve at h
  simp only [bind_eq_ok_iff] at h
  obtain ⟨_, -, _, -, _, -, d, hd, p, hp, k, hk, a, ha, _, -, _, -,
    _, -, _, -, _, -, _, -, _, -, _, -, _, -, _, -, h⟩ := h
  cases h
  exact ⟨d, p, k, a, hd, hp, hk, ha, rfl, rfl, rfl, rfl⟩

-- ======================================================= later calls

variable [Eigen F]

/-- The per-joint vectors that the calls index. -/
def jointVecs : List Vec := [.defaultDofPos, .actionScales, .lastAction]

/-- With the vectors at the joint count, a failing call has not failed
on one of them. -/
theorem step_fault {base dc : DataConverter F} (hset : dc.SameSetup base)
    (hlast : dc.lastAction.length = base.numDof)
    (hdef : base.numDof ≤ base.cfg.defaultDofPos.length)
    (hscales : base.numDof ≤ base.cfg.actionScales.length)
    {op : Op F D} {f : Fault} (h : (step dc op).out = .error f) :
    ∀ v ∈ jointVecs, f ≠ .index v := by
  have hn := hset.numDof
  have hd : ¬ dc.cfg.defaultDofPos.length < dc.numDof := by
    rw [hn, hset.cfg]
    omega
  have hs : ¬ dc.cfg.actionScales.length < dc.numDof := by
    rw [hn, hset.cfg]
    omega
  have hl : ¬ dc.lastAction.length < dc.numDof := by omega
  cases op with
  | setMotionCommand cmd => cases h
  | setBase quat pos yawOnly xyOnly => cases h
  | buildObservation w q names pos vel =>
      unfold step at h
      cases hobs : dc.buildObservation w q names pos vel with
      | ok obs => simp [hobs] at h
      | error e =>
          simp [hobs] at h
          subst h
          rcases buildObservation_fault hobs with hf | hf | hf | hf
          · rcases hf with rfl | rfl | rfl | rfl <;> simp [jointVecs]
          · rcases hf.1 with rfl | rfl <;> simp [jointVecs]
          · exact absurd hf.2 hd
          · exact absurd hf.2 hl
  | processAction raw =>
      unfold step at h
      cases hp : dc.processAction raw with
      | ok r => simp [hp] at h
      | error e =>
          simp [hp] at h
          subst h
          rcases processAction_fault hp with rfl | hf | hf
          · simp [jointVecs]
          · exact absurd hf.2 hl
          · exact absurd hf.2 hs
  | computePdTarget action =>
      unfold step at h
      cases ht : dc.computePdTarget action with
      | ok target => simp [ht] at h
      | error e =>
          simp [ht] at h
          subst h
          rcases computePdTarget_fault ht with rfl | rfl | hf
          · simp [jointVecs]
          · simp [jointVecs]
          · exact absurd hf.2 hd
  | actionToJointCmd target => cases h

/-- So no sequence of calls fails on one of them. -/
theorem run_fault {base : DataConverter F}
    (hlast : base.lastAction.length = base.numDof)
    (hdef : base.numDof ≤ base.cfg.defaultDofPos.length)
    (hscales : base.numDof ≤ base.cfg.actionScales.length)
    {ops : List (Op F D)} {f : Fault}
    (h : (run base ops).out = .error f) :
    ∀ v ∈ jointVecs, f ≠ .index v :=
  Logged.run_fault
    (fun dc => dc.SameSetup base ∧ dc.lastAction.length = base.numDof)
    (fun f => ∀ v ∈ jointVecs, f ≠ .index v)
    (fun _ _ _ hi he => step_fault hi.1 hi.2 hdef hscales he)
    (fun _ _ _ hi hs => step_keeps hi.1 hi.2 hs)
    ⟨SameSetup.refl base, hlast⟩ h

-- ========================================================== the theorem

/-- What `configureFromYaml` leaves, whenever it returns: vectors by the
rule, a last action with one entry a joint, and calls that stay inside
these vectors whenever the two indexed ones reach the joint count. -/
theorem configureFromYaml_resolves {y : YamlCpp F}
    {dc dc' : DataConverter F} {path : String}
    {modelMeta : BeyondMimicConfig F}
    (h : configureFromYaml y dc path modelMeta = .ok dc') :
    ∃ root, y.loadFile path = .ok root
      ∧ Resolved (yamlList y root "default_dof_pos")
        (metadataList modelMeta modelMeta.defaultDofPos) dc'.numDof
        (Scalar.ofRat 0) dc'.cfg.defaultDofPos
      ∧ Resolved ((yamlList y root "action_scales").filter
          fun xs => !xs.isEmpty)
        (metadataList modelMeta modelMeta.actionScales) dc'.numDof
        (Scalar.ofRat (1 / 4)) dc'.cfg.actionScales
      ∧ Resolved (yamlList y root "kp")
        (metadataList modelMeta modelMeta.kp) dc'.numDof
        (Scalar.ofRat 100) dc'.cfg.kp
      ∧ Resolved (yamlList y root "kd")
        (metadataList modelMeta modelMeta.kd) dc'.numDof
        (Scalar.ofRat 10) dc'.cfg.kd
      ∧ dc'.lastAction.length = dc'.numDof
      ∧ (dc'.numDof ≤ dc'.cfg.defaultDofPos.length →
        dc'.numDof ≤ dc'.cfg.actionScales.length →
        ∀ (ops : List (Op F D)), ∀ v ∈ jointVecs,
          (run dc' ops).out ≠ .error (.index v)) := by
  unfold configureFromYaml at h
  simp only [bind_eq_ok_iff] at h
  obtain ⟨root, hroot, cfg, hcfg, h⟩ := h
  cases h
  obtain ⟨d, p, k, a, hd, hp, hk, ha, hd', hp', hk', ha'⟩ :=
    resolve_vectors hcfg
  have hn := configure_numDof dc cfg
  obtain ⟨i, hi, -⟩ := cfg.setAnchorBodyIndex_eq
  have hlast := configure_lastLength dc cfg
  rw [configure_cfg, hi, hn]
  rw [hn] at hlast
  refine ⟨root, hroot, resolved_override hd hd',
    resolved_actionScales ha ha', resolved_override hp hp',
    resolved_override hk hk', hlast, ?_⟩
  intro hdef hscales ops v hv hf
  refine run_fault (hlast.trans hn.symm) ?_ ?_ hf v hv rfl
  · rw [hn, configure_cfg, hi]
    exact hdef
  · rw [hn, configure_cfg, hi]
    exact hscales

-- ============================================================ instances

/-- A file with two joints and the given `default_dof_pos`. -/
def twoJointFile (defaults : List Yaml) : Yaml :=
  .map [(.scalar "joint_names", .seq [.scalar "hip", .scalar "knee"]),
    (.scalar "robot_joint_names", .seq [.scalar "hip", .scalar "knee"]),
    (.scalar "default_dof_pos", .seq defaults)]

/-- A reader of that file; its floats are `0.5` and `-0.5`. -/
def twoJointYaml (defaults : List Yaml) : YamlCpp ℚ where
  loadFile _ := .ok (twoJointFile defaults)
  asString
    | .scalar text => .ok text
    | _ => .error (.throw .yaml)
  asFloat
    | .scalar "0.5" => .ok (1 / 2)
    | .scalar "-0.5" => .ok (-1 / 2)
    | _ => .error (.throw .yaml)
  asInt _ := .error (.throw .yaml)
  asBool _ := .error (.throw .yaml)

theorem configureFromYaml_resolves_two :
    ∃ dc, configureFromYaml
        (twoJointYaml [.scalar "0.5", .scalar "-0.5"]) init
        "rl_config.yaml" BeyondMimicConfig.init = .ok dc
      ∧ dc.cfg.defaultDofPos = [1 / 2, -1 / 2]
      ∧ dc.lastAction.length = dc.numDof
      ∧ ∀ (ops : List (Op ℚ ℚ)), ∀ v ∈ jointVecs,
        (run dc ops).out ≠ .error (.index v) := by
  obtain ⟨dc, hdc⟩ : ∃ dc, configureFromYaml
      (twoJointYaml [.scalar "0.5", .scalar "-0.5"]) init
      "rl_config.yaml" BeyondMimicConfig.init = .ok dc := ⟨_, rfl⟩
  obtain ⟨root, hroot, hd, -, -, -, hlast, hrun⟩ :=
    configureFromYaml_resolves hdc
  cases hroot
  have hdef := hd.given [1 / 2, -1 / 2] rfl (by simp)
  refine ⟨dc, hdc, hdef, hlast, hrun ?_ ?_⟩
  · cases hdc
    decide
  · cases hdc
    decide

/-- One default position for two joints is accepted, and the first
observation reads past it. -/
theorem short_list_accepted :
    ∃ dc, configureFromYaml (twoJointYaml [.scalar "0.5"]) init
        "rl_config.yaml" BeyondMimicConfig.init = .ok dc
      ∧ dc.numDof = 2 ∧ dc.cfg.defaultDofPos.length = 1
      ∧ dc.buildObservation ⟨0, 0, 0⟩ ⟨1, 0, 0, 0⟩ [] [] []
        = .error (.index .defaultDofPos) :=
  ⟨_, rfl, rfl, rfl, rfl⟩

end DataConverter

end RlDeploy
