/-
Runs of a configured converter: what every sequence of well-sized calls
keeps.

`configure` fixes the configuration, both adapters and the reverse name
map; no other call touches them (`SameSetup`). What calls do change is
the motion command, the last action and the alignment, and on well-sized
arguments the first two keep their sizes (`Sound`). A setup is `Ready`
when its lengths reach the joint count; from a `Ready` setup no
well-sized call ever fails (`step_ok`, `run_ok`).

`configure` makes a `Ready` setup of every configuration with robot
joint names and per-joint vectors of `numDof` entries
(`configure_ready`).
-/
import RlDeploy.Converter.Proofs.Spec

namespace RlDeploy

open Lib

variable {F D : Type} [Scalar F D]

/-- The per-joint vectors the converter reads have one entry a joint. -/
structure BeyondMimicConfig.Sized (cfg : BeyondMimicConfig F) :
    Prop where
  defaultDofPos : cfg.defaultDofPos.length = cfg.numDof
  actionScales : cfg.actionScales.length = cfg.numDof

/-- The per-joint vectors reach the joint count, and the adapters are
built when there are joints: a configuration the loops can run on. -/
structure BeyondMimicConfig.Runnable (cfg : BeyondMimicConfig F) :
    Prop where
  robot : cfg.numDof = 0 ∨ cfg.robotJointNames ≠ []
  default : cfg.numDof ≤ cfg.defaultDofPos.length
  scales : cfg.numDof ≤ cfg.actionScales.length

omit [Scalar F D] in
theorem BeyondMimicConfig.Sized.runnable {cfg : BeyondMimicConfig F}
    (h : cfg.Sized)
    (hrobot : cfg.numDof = 0 ∨ cfg.robotJointNames ≠ []) :
    cfg.Runnable :=
  ⟨hrobot, h.defaultDofPos.ge, h.actionScales.ge⟩

namespace DataConverter

/-- A call whose vectors have one entry a joint (and a body). Messages
and commands' targets are not restricted. -/
def Op.WellSized (n b : Nat) : Op F D → Prop
  | .setMotionCommand cmd => cmd.Sized n b
  | .processAction raw => raw.length = n
  | .computePdTarget scaled => scaled.length = n
  | .setBase .. | .buildObservation .. | .actionToJointCmd _ => True

/-- The members that only `configure` sets are equal. -/
structure SameSetup (dc base : DataConverter F) : Prop where
  cfg : dc.cfg = base.cfg
  robot2model : dc.robot2model = base.robot2model
  model2robot : dc.model2robot = base.model2robot
  names : dc.modelToRos2Names = base.modelToRos2Names

/-- A setup whose lengths reach the joint count. -/
structure Ready (dc : DataConverter F) : Prop where
  tarLen : dc.numDof ≤ dc.robot2model.tarLen
  default : dc.numDof ≤ dc.cfg.defaultDofPos.length
  scales : dc.numDof ≤ dc.cfg.actionScales.length
  anchor : ∃ k : Nat, dc.cfg.anchorBodyIndex = k
    ∧ (0 < dc.cfg.numBodies → k < dc.cfg.numBodies)

/-- The run invariant: the setup of `base`, and members of full size. -/
structure Sound (base dc : DataConverter F) : Prop where
  setup : dc.SameSetup base
  command : dc.command.Sized base.numDof base.cfg.numBodies
  last : dc.lastAction.length = base.numDof

theorem SameSetup.refl (dc : DataConverter F) : dc.SameSetup dc :=
  ⟨rfl, rfl, rfl, rfl⟩

theorem SameSetup.trans {a b c : DataConverter F}
    (h : a.SameSetup b) (h' : b.SameSetup c) : a.SameSetup c :=
  ⟨h.cfg.trans h'.cfg, h.robot2model.trans h'.robot2model,
    h.model2robot.trans h'.model2robot, h.names.trans h'.names⟩

theorem SameSetup.numDof {dc base : DataConverter F}
    (h : dc.SameSetup base) : dc.numDof = base.numDof := by
  unfold DataConverter.numDof
  rw [h.cfg]

/-- The other members are free. -/
theorem SameSetup.members {dc base : DataConverter F}
    (h : dc.SameSetup base) (cmd : MotionCommand F) (last : List F)
    (a : TransformAlignment F) :
    SameSetup { dc with
      command := cmd
      lastAction := last
      initAlign := a } base :=
  ⟨h.cfg, h.robot2model, h.model2robot, h.names⟩

/-- Wire names are part of the setup. -/
theorem SameSetup.wireName {dc base : DataConverter F}
    (h : dc.SameSetup base) (n : String) :
    dc.wireName n = base.wireName n := by
  unfold DataConverter.wireName
  rw [h.names]

/-- So are the lengths the loops rely on. -/
theorem SameSetup.ready {dc base : DataConverter F}
    (h : dc.SameSetup base) (hb : base.Ready) : dc.Ready := by
  refine ⟨?_, ?_, ?_, ?_⟩
  · rw [h.numDof, h.robot2model]
    exact hb.tarLen
  · rw [h.numDof, h.cfg]
    exact hb.default
  · rw [h.numDof, h.cfg]
    exact hb.scales
  · rw [h.cfg]
    exact hb.anchor

/-- A full-size motion command is readable. -/
theorem Sound.commandReadable {base dc : DataConverter F}
    (h : Sound base dc) : dc.CommandReadable := by
  unfold CommandReadable
  rw [h.setup.numDof]
  rcases h.command with he | ⟨hp, hv, -, -⟩
  · left
    rw [he]
    rfl
  · exact Or.inr ⟨hp.ge, hv.ge⟩

/-- On a `Ready` setup the run invariant makes the members readable. -/
theorem Sound.observable {base dc : DataConverter F} (hb : base.Ready)
    (h : Sound base dc) : dc.Observable := by
  have hready := h.setup.ready hb
  refine ⟨hready.tarLen, hready.default, ?_, h.commandReadable, ?_⟩
  · rw [h.setup.numDof]
    exact h.last.ge
  · intro hne hbodies _
    obtain ⟨k, hk, hlt⟩ := hb.anchor
    rw [h.setup.cfg] at hbodies
    rw [h.setup.cfg, hk, Int.toNat_natCast]
    have hlt' := hlt hbodies
    rcases h.command with he | ⟨-, -, hpos, hquat⟩
    · rw [he] at hne
      cases hne
    · rw [hpos, hquat]
      omega

/-- Under the run invariant `processAction` returns, keeps the invariant
and changes nothing but the last action. -/
theorem Sound.processAction {base dc : DataConverter F}
    (hscales : base.numDof ≤ base.cfg.actionScales.length)
    (h : Sound base dc) {raw : List F}
    (hraw : raw.length = base.numDof) :
    dc.processAction raw
        = .ok ({ dc with lastAction := dc.smoothed raw }, dc.scaled raw)
      ∧ Sound base { dc with lastAction := dc.smoothed raw }
      ∧ (dc.scaled raw).length = base.numDof := by
  have hn := h.setup.numDof
  have hlast : dc.numDof ≤ dc.lastAction.length := by rw [hn, h.last]
  have hraw' : dc.numDof ≤ raw.length := by rw [hn, hraw]
  have hscale : dc.numDof ≤ dc.cfg.actionScales.length := by
    rw [hn, h.setup.cfg]
    exact hscales
  refine ⟨processAction_eq hlast hraw' hscale, ⟨?_, h.command, ?_⟩, ?_⟩
  · exact h.setup.members ..
  · rw [smoothed_length hlast hraw', hn]
  · rw [scaled_length hlast hraw' hscale, hn]

/-- A changed motion command of full size keeps the run invariant. -/
theorem Sound.withCommand {base dc : DataConverter F}
    (h : Sound base dc) {cmd : MotionCommand F}
    (hcmd : cmd.Sized base.numDof base.cfg.numBodies) :
    Sound base (dc.setMotionCommand cmd) :=
  ⟨h.setup.members .., hcmd, h.last⟩

/-- So does a changed alignment. -/
theorem Sound.withAlign {base dc : DataConverter F}
    (h : Sound base dc) (a : TransformAlignment F) :
    Sound base { dc with initAlign := a } :=
  ⟨h.setup.members .., h.command, h.last⟩

/-- Under the run invariant `computePdTarget` returns. -/
theorem Sound.computePdTarget {base dc : DataConverter F}
    (hdef : base.numDof ≤ base.cfg.defaultDofPos.length)
    (h : Sound base dc) {action : List F}
    (hact : action.length = base.numDof) :
    dc.computePdTarget action
      = .ok (if dc.cfg.robotJointNames.isEmpty then dc.targets action
          else dc.model2robot.fitted (dc.targets action)) := by
  refine computePdTarget_eq ?_ h.commandReadable ?_
  · rw [h.setup.numDof, h.setup.cfg]
    exact hdef
  · rw [h.setup.numDof, hact]

variable [Eigen F]

/-- One well-sized call returns and keeps the run invariant. -/
theorem step_ok {base dc : DataConverter F} (hb : base.Ready)
    (h : Sound base dc) {op : Op F D}
    (hop : op.WellSized base.numDof base.cfg.numBodies) :
    ∃ dc', (step dc op).out = .ok dc' ∧ Sound base dc' := by
  cases op with
  | setMotionCommand cmd =>
      exact ⟨_, rfl, h.withCommand hop⟩
  | setBase quat pos yawOnly xyOnly =>
      exact ⟨_, rfl, h.withAlign _⟩
  | buildObservation w q names pos vel =>
      obtain ⟨_, -, hobs⟩ :=
        buildObservation_eq (h.observable hb) w q names pos vel
      refine ⟨dc, ?_, h⟩
      simp [step, hobs]
  | processAction raw =>
      obtain ⟨hp, hs, -⟩ := h.processAction hb.scales hop
      refine ⟨_, ?_, hs⟩
      simp [step, hp]
  | computePdTarget scaled =>
      refine ⟨dc, ?_, h⟩
      simp [step, h.computePdTarget hb.default hop]
  | actionToJointCmd pdTarget =>
      refine ⟨dc, ?_, h⟩
      simp [step]

/-- No run of well-sized calls fails, and every one keeps the
invariant. -/
theorem run_ok {base dc : DataConverter F} (hb : base.Ready)
    (h : Sound base dc) {ops : List (Op F D)}
    (hops : ∀ op ∈ ops, op.WellSized base.numDof base.cfg.numBodies) :
    ∃ dc', (run dc ops).out = .ok dc' ∧ Sound base dc' :=
  Logged.run_ok (Sound base)
    (fun op => op.WellSized base.numDof base.cfg.numBodies)
    (fun _ _ hs hop => step_ok hb hs hop) h hops

/-- What every call keeps, with arguments of any size: the setup, and
the size of the last action. -/
theorem step_keeps {base dc dc' : DataConverter F}
    (hset : dc.SameSetup base)
    (hlast : dc.lastAction.length = base.numDof) {op : Op F D}
    (h : (step dc op).out = .ok dc') :
    dc'.SameSetup base ∧ dc'.lastAction.length = base.numDof := by
  cases op with
  | setMotionCommand cmd =>
      cases h
      exact ⟨hset.members .., hlast⟩
  | setBase quat pos yawOnly xyOnly =>
      cases h
      exact ⟨hset.members .., hlast⟩
  | buildObservation w q names pos vel =>
      unfold step at h
      cases hobs : dc.buildObservation w q names pos vel with
      | error e => simp [hobs] at h
      | ok obs =>
          simp [hobs] at h
          subst h
          exact ⟨hset, hlast⟩
  | processAction raw =>
      unfold step at h
      cases hp : dc.processAction raw with
      | error e => simp [hp] at h
      | ok r =>
          obtain ⟨dc₁, action⟩ := r
          obtain ⟨hdc₁, -, hlen⟩ := processAction_ok hp
          simp [hp] at h
          subst h
          rw [hdc₁]
          exact ⟨hset.members .., hlen.trans hset.numDof⟩
  | computePdTarget action =>
      unfold step at h
      cases ht : dc.computePdTarget action with
      | error e => simp [ht] at h
      | ok target =>
          simp [ht] at h
          subst h
          exact ⟨hset, hlast⟩
  | actionToJointCmd target =>
      cases h
      exact ⟨hset, hlast⟩

/-- So does every run that returns. -/
theorem run_keeps {base dc : DataConverter F} {ops : List (Op F D)}
    (hlast : base.lastAction.length = base.numDof)
    (h : (run base ops).out = .ok dc) :
    dc.SameSetup base ∧ dc.lastAction.length = base.numDof :=
  Logged.run_inv
    (fun dc => dc.SameSetup base ∧ dc.lastAction.length = base.numDof)
    (fun _ _ _ hi hs => step_keeps hi.1 hi.2 hs)
    ⟨SameSetup.refl base, hlast⟩ h

-- ===================================================== after configure

section Configure

omit [Eigen F]

theorem configure_cfg (dc : DataConverter F)
    (cfg : BeyondMimicConfig F) :
    (dc.configure cfg).cfg = cfg.setAnchorBodyIndex := by
  unfold configure
  dsimp only
  split <;> rfl

theorem configure_numDof (dc : DataConverter F)
    (cfg : BeyondMimicConfig F) :
    (dc.configure cfg).numDof = cfg.numDof := by
  unfold numDof
  rw [configure_cfg, BeyondMimicConfig.setAnchorBodyIndex_numDof]

theorem configure_numBodies (dc : DataConverter F)
    (cfg : BeyondMimicConfig F) :
    (dc.configure cfg).cfg.numBodies = cfg.numBodies := by
  rw [configure_cfg, BeyondMimicConfig.setAnchorBodyIndex_numBodies]

theorem configure_lastAction (dc : DataConverter F)
    (cfg : BeyondMimicConfig F) :
    (dc.configure cfg).lastAction = List.replicate cfg.numDof 0 := by
  unfold configure
  dsimp only
  split <;> rfl

theorem configure_lastLength (dc : DataConverter F)
    (cfg : BeyondMimicConfig F) : (dc.configure cfg).lastAction.length
      = (dc.configure cfg).numDof := by
  rw [configure_lastAction, configure_numDof, List.length_replicate]

/-- The configuration a configured converter keeps is the given one,
with a body's index. -/
theorem SameSetup.config {dc₀ dc : DataConverter F}
    {cfg : BeyondMimicConfig F} (h : dc.SameSetup (dc₀.configure cfg)) :
    ∃ k : Nat, dc.cfg = { cfg with anchorBodyIndex := k } := by
  obtain ⟨k, hk, -⟩ := cfg.setAnchorBodyIndex_eq
  exact ⟨k, h.cfg.trans ((configure_cfg dc₀ cfg).trans hk)⟩

/-- So is the joint count. -/
theorem SameSetup.joints {dc₀ dc : DataConverter F}
    {cfg : BeyondMimicConfig F} (h : dc.SameSetup (dc₀.configure cfg)) :
    dc.numDof = cfg.numDof :=
  h.numDof.trans (configure_numDof dc₀ cfg)

theorem configure_command (dc : DataConverter F)
    (cfg : BeyondMimicConfig F) :
    (dc.configure cfg).command = dc.command := by
  unfold configure
  dsimp only
  split <;> rfl

/-- `configure` leaves the alignment. -/
theorem configure_initAlign (dc : DataConverter F)
    (cfg : BeyondMimicConfig F) :
    (dc.configure cfg).initAlign = dc.initAlign := by
  unfold configure
  dsimp only
  split <;> rfl

theorem configure_robotJointNames (dc : DataConverter F)
    (cfg : BeyondMimicConfig F) :
    (dc.configure cfg).cfg.robotJointNames = cfg.robotJointNames := by
  rw [configure_cfg]
  obtain ⟨k, hk, -⟩ := cfg.setAnchorBodyIndex_eq
  rw [hk]

/-- With robot joint names, the adapters are built between the two name
lists. -/
theorem configure_adapters (dc : DataConverter F)
    {cfg : BeyondMimicConfig F} (h : cfg.robotJointNames ≠ []) :
    (dc.configure cfg).robot2model
        = DoFAdapter.build cfg.robotJointNames cfg.jointNames ∅
      ∧ (dc.configure cfg).model2robot
        = DoFAdapter.build cfg.jointNames cfg.robotJointNames ∅ := by
  obtain ⟨k, hk, -⟩ := cfg.setAnchorBodyIndex_eq
  have he : cfg.robotJointNames.isEmpty = false := by
    rwa [List.isEmpty_eq_false_iff]
  unfold configure BeyondMimicConfig.controlledNames
  rw [hk]
  simp [he]

/-- Without them neither the adapter nor the reverse name map is
built. -/
theorem configure_oneToOne (dc : DataConverter F)
    {cfg : BeyondMimicConfig F} (h : cfg.robotJointNames = []) :
    (dc.configure cfg).robot2model = dc.robot2model
      ∧ (dc.configure cfg).modelToRos2Names = dc.modelToRos2Names := by
  obtain ⟨k, hk, -⟩ := cfg.setAnchorBodyIndex_eq
  unfold configure
  rw [hk]
  simp [h]

theorem configure_controlledNames (dc : DataConverter F)
    {cfg : BeyondMimicConfig F} (h : cfg.robotJointNames ≠ []) :
    (dc.configure cfg).cfg.controlledNames = cfg.robotJointNames := by
  have he : cfg.robotJointNames.isEmpty = false := by
    rwa [List.isEmpty_eq_false_iff]
  unfold BeyondMimicConfig.controlledNames
  rw [configure_robotJointNames, he]
  rfl

/-- With robot joint names, the reverse map's entry of a model name is
the last key of `joint_name_map` with that name, else the old entry. -/
theorem configure_names (dc : DataConverter F)
    {cfg : BeyondMimicConfig F} (h : cfg.robotJointNames ≠ [])
    (n : String) :
    (dc.configure cfg).modelToRos2Names[n]?
      = (lastKey cfg.jointNameMap.toList n).or
          dc.modelToRos2Names[n]? := by
  obtain ⟨k, hk, -⟩ := cfg.setAnchorBodyIndex_eq
  have he : cfg.robotJointNames.isEmpty = false := by
    rwa [List.isEmpty_eq_false_iff]
  unfold configure
  rw [hk]
  simp only [he, Bool.false_eq_true, if_false]
  rw [Std.TreeMap.foldl_eq_foldl_toList, invert_getElem?]

/-- A wire name is the reverse map's entry, else the name itself. -/
theorem wireName_eq (dc : DataConverter F) (n : String) :
    dc.wireName n = dc.modelToRos2Names[n]?.getD n := by
  unfold wireName
  cases dc.modelToRos2Names[n]? <;> rfl

/-- So a model name's wire name is that key, else that entry, else the
name itself. -/
theorem configure_wireName (dc : DataConverter F)
    {cfg : BeyondMimicConfig F} (h : cfg.robotJointNames ≠ [])
    (n : String) :
    (dc.configure cfg).wireName n
      = ((lastKey cfg.jointNameMap.toList n).or
          dc.modelToRos2Names[n]?).getD n := by
  rw [wireName_eq, configure_names dc h]

/-- `configure` makes a readable setup of every runnable
configuration. -/
theorem configure_ready (dc : DataConverter F)
    {cfg : BeyondMimicConfig F} (h : cfg.Runnable) :
    (dc.configure cfg).Ready := by
  obtain ⟨k, hk, hlt⟩ := cfg.setAnchorBodyIndex_eq
  refine ⟨?_, ?_, ?_, k, ?_, ?_⟩
  · rw [configure_numDof]
    rcases h.robot with h0 | hne
    · omega
    · rw [(configure_adapters dc hne).1]
      exact le_refl _
  · rw [configure_numDof, configure_cfg, hk]
    exact h.default
  · rw [configure_numDof, configure_cfg, hk]
    exact h.scales
  · rw [configure_cfg, hk]
  · rw [configure_numBodies]
    exact hlt

/-- Conversely, a setup whose lengths reach the joint count was
configured with a runnable configuration: a fresh converter's adapter
has no targets until robot joint names build it. -/
theorem SameSetup.runnable {dc : DataConverter F}
    {cfg : BeyondMimicConfig F}
    (h : dc.SameSetup (init.configure cfg))
    (htar : dc.numDof ≤ dc.robot2model.tarLen)
    (hdef : dc.numDof ≤ dc.cfg.defaultDofPos.length)
    (hscales : dc.numDof ≤ dc.cfg.actionScales.length) :
    cfg.Runnable := by
  obtain ⟨k, hk⟩ := h.config
  rw [h.joints] at htar hdef hscales
  rw [hk] at hdef hscales
  rw [h.robot2model] at htar
  refine ⟨?_, hdef, hscales⟩
  by_cases hrobot : cfg.robotJointNames = []
  case neg => exact Or.inr hrobot
  left
  rw [(configure_oneToOne init hrobot).1] at htar
  exact Nat.le_zero.mp htar

/-- A freshly configured converter starts the run invariant. -/
theorem configure_sound (cfg : BeyondMimicConfig F) :
    Sound (init.configure cfg) (init.configure cfg) := by
  exact ⟨SameSetup.refl _, Or.inl (configure_command _ _),
    configure_lastLength _ _⟩

end Configure

/-- The states a configured converter can reach by well-sized calls. -/
theorem run_configure_ok {cfg : BeyondMimicConfig F} (h : cfg.Runnable)
    {ops : List (Op F D)}
    (hops : ∀ op ∈ ops, op.WellSized cfg.numDof cfg.numBodies) :
    ∃ dc, (run (init.configure cfg) ops).out = .ok dc
      ∧ Sound (init.configure cfg) dc := by
  apply run_ok (configure_ready _ h) (configure_sound cfg)
  rw [configure_numDof, configure_numBodies]
  exact hops

-- ================================================= a concrete instance

/-- Two joints that the robot lists in the other order, one of them
under another wire name: the instance the witnesses run on. -/
def crossed : BeyondMimicConfig ℚ :=
  { BeyondMimicConfig.init with
    jointNames := ["hip", "knee"]
    defaultDofPos := [1 / 2, -1]
    actionScales := [1 / 4, 1 / 2]
    robotJointNames := ["knee", "hip"]
    jointNameMap := (∅ : StdMap String).insert "leg_l1" "hip"
    bodyNames := ["base"]
    anchorBodyName := "base" }

theorem crossed_sized : crossed.Sized := ⟨rfl, rfl⟩

/-- A full-size motion frame for `crossed`. -/
def crossedMotion : MotionCommand ℚ where
  jointPos := [1, 2]
  jointVel := [0, 0]
  bodyPosW := [0, 0, 1]
  bodyQuatW := [1, 0, 0, 0]

/-- Calls that fill every member `crossed` reads. -/
def crossedOps : List (Op ℚ ℚ) :=
  [.setMotionCommand crossedMotion,
    .setBase ⟨1, 0, 0, 0⟩ ⟨0, 0, 1⟩ true true,
    .processAction [1, -1]]

theorem crossedOps_wellSized :
    ∀ op ∈ crossedOps,
      op.WellSized crossed.numDof crossed.numBodies := by
  simp [crossedOps, Op.WellSized, MotionCommand.Sized, crossedMotion,
    crossed, BeyondMimicConfig.numDof, BeyondMimicConfig.numBodies]

end DataConverter

end RlDeploy
