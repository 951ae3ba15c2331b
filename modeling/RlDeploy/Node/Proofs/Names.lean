/-
Whom a command addresses.

The joints of a command do not depend on the run: every command of every
run, for every model, names the robot's joints under their wire names, in
the order of the configuration, with one entry a joint in each of its
lists (`commands_addressed`). No size of the configuration or of the model's
answers is assumed, and the run may end in a fault.

The robot looks a command up by name, so two entries of one name would
leave a joint without a command. The wire names are different for
different joints but in one case: a joint has been given, as its wire
name, the name of another robot joint that has no wire name of its own
(`Clash`).
-/
import RlDeploy.Node.Proofs.Steady
import RlDeploy.Converter.Proofs.ByName
import RlDeploy.Tool.JointCmd

namespace RlDeploy

open Lib

variable {F D : Type} [Scalar F D]

namespace DataConverter

variable {cfg : BeyondMimicConfig F}

/-- The wire name of `a` is the name of `b`, to which nothing is
mapped. -/
structure Clash (cfg : BeyondMimicConfig F) (a b : String) : Prop where
  mapped : cfg.jointNameMap[b]? = some a
  greatest : ∀ other : String, cfg.jointNameMap[other]? = some a →
    other ≤ b
  unmapped : ∀ other : String, cfg.jointNameMap[other]? ≠ some b

/-- Two joints of one wire name clash. -/
theorem wireName_inj (hrobot : cfg.robotJointNames ≠ []) {a b : String}
    (hab : ¬ Clash cfg a b) (hba : ¬ Clash cfg b a)
    (h : (init.configure cfg).wireName a
      = (init.configure cfg).wireName b) : a = b := by
  have ha := wireName_isWireName hrobot a
  have hb := wireName_isWireName hrobot b
  rw [h] at ha
  rcases ha with ⟨hmap, hgreat⟩ | ⟨hself, hnone⟩
  · rcases hb with ⟨hmap', -⟩ | ⟨hself', hnone'⟩
    · exact Option.some.inj (hmap.symm.trans hmap')
    · rw [hself'] at hmap hgreat
      exact absurd ⟨hmap, hgreat, hnone'⟩ hab
  · rcases hb with ⟨hmap', hgreat'⟩ | ⟨hself', -⟩
    · rw [hself] at hmap' hgreat'
      exact absurd ⟨hmap', hgreat', hnone⟩ hba
    · exact hself.symm.trans hself'

/-- Joints that clash have one wire name. -/
theorem Clash.wireName (hrobot : cfg.robotJointNames ≠ []) {a b : String}
    (h : Clash cfg a b) : (init.configure cfg).wireName a
      = (init.configure cfg).wireName b := by
  have ha : IsWireName cfg a b := Or.inl ⟨h.mapped, h.greatest⟩
  have hb : IsWireName cfg b b := Or.inr ⟨rfl, h.unmapped⟩
  rw [(wireName_isWireName hrobot a).unique ha,
    (wireName_isWireName hrobot b).unique hb]

/-- The wire names of joints are different if and only if the joints are
and none of them clash. -/
theorem wireNames_nodup_iff (hrobot : cfg.robotJointNames ≠ [])
    (joints : List String) :
    (joints.map (init.configure cfg).wireName).Nodup
      ↔ joints.Nodup ∧ ∀ a ∈ joints, ∀ b ∈ joints, ¬ Clash cfg a b := by
  constructor
  · intro h
    refine ⟨h.of_map _, ?_⟩
    intro a ha b hb hclash
    have heq : a = b :=
      List.inj_on_of_nodup_map h ha hb (hclash.wireName hrobot)
    exact hclash.unmapped b (heq ▸ hclash.mapped)
  · intro ⟨hnd, hno⟩
    apply (List.nodup_map_iff_inj_on hnd).mpr
    intro a ha b hb h
    exact wireName_inj hrobot (hno a ha b hb) (hno b hb a ha) h

end DataConverter

namespace RLControllerNode

variable [Eigen F] {cfg : BeyondMimicConfig F} {net : Policy F}

/-- A command to the robot's joints. -/
structure Addressed (cfg : BeyondMimicConfig F) (cmd : JointState D) :
    Prop where
  name : List.Forall₂ (DataConverter.IsWireName cfg) cfg.robotJointNames
    cmd.name
  position : cmd.position.length = cfg.robotJointNames.length
  velocity : cmd.velocity
    = List.replicate cfg.robotJointNames.length (Scalar.zeroD F)
  effort : cmd.effort
    = List.replicate cfg.robotJointNames.length (Scalar.zeroD F)
  distinct : cmd.name.Nodup ↔ cfg.robotJointNames.Nodup
    ∧ ∀ a ∈ cfg.robotJointNames, ∀ b ∈ cfg.robotJointNames,
      ¬ DataConverter.Clash cfg a b

omit [Eigen F] in
/-- The target has an entry for every robot joint, whatever it was
computed from. -/
theorem target_length {dc : DataConverter F}
    (hrobot : cfg.robotJointNames ≠ [])
    (hset : dc.SameSetup (DataConverter.init.configure cfg))
    {scaled target : List F}
    (h : dc.computePdTarget scaled = .ok target) :
    target.length = cfg.robotJointNames.length := by
  have hne : dc.cfg.robotJointNames.isEmpty = false := by
    rw [hset.cfg, DataConverter.configure_robotJointNames]
    exact List.isEmpty_eq_false_iff.mpr hrobot
  unfold DataConverter.computePdTarget at h
  obtain ⟨model, -, h⟩ := bind_eq_ok_iff.mp h
  rw [hne, if_neg (by simp), DoFAdapter.fit_eq] at h
  cases h
  rw [DoFAdapter.fitted_length, hset.model2robot,
    (DataConverter.configure_adapters _ hrobot).2,
    DoFAdapter.build_tarLen]

omit [Eigen F] in
theorem addressed_of_setup {dc : DataConverter F}
    (hrobot : cfg.robotJointNames ≠ [])
    (hset : dc.SameSetup (DataConverter.init.configure cfg))
    {target : List F}
    (hlen : target.length = cfg.robotJointNames.length) :
    Addressed cfg (dc.actionToJointCmd target) := by
  have hctrl : dc.cfg.controlledNames = cfg.robotJointNames := by
    rw [hset.cfg, DataConverter.configure_controlledNames _ hrobot]
  have hpair : target.length = dc.cfg.controlledNames.length := by
    rw [hlen, hctrl]
  have hzip : (target.zip dc.cfg.controlledNames).length
      = cfg.robotJointNames.length := by
    rw [List.length_zip, hctrl, hlen, min_self]
  have hname : (dc.actionToJointCmd target).name
      = cfg.robotJointNames.map
        (DataConverter.init.configure cfg).wireName := by
    rw [DataConverter.actionToJointCmd_name hpair, hctrl]
    apply List.map_congr_left
    intro joint _
    exact hset.wireName joint
  refine ⟨?_, ?_, ?_, ?_, ?_⟩
  · rw [hname, List.forall₂_map_right_iff, List.forall₂_same]
    intro joint _
    exact DataConverter.wireName_isWireName hrobot joint
  · rw [DataConverter.actionToJointCmd_position hpair, List.length_map,
      hlen]
  · show (target.zip _).map _ = _
    rw [List.map_const', hzip]
  · show (target.zip _).map _ = _
    rw [List.map_const', hzip]
  · rw [hname]
    exact DataConverter.wireNames_nodup_iff hrobot cfg.robotJointNames

/-- Every command of every run. -/
theorem commands_addressed (hrobot : cfg.robotJointNames ≠ []) {s m : Int}
    {evs : List (Event D)} {cmd : JointState D}
    (h : cmd ∈ published (run net (start cfg s m) evs).log) :
    Addressed cfg cmd := by
  have hact : Act.publish cmd
      ∈ (run net (start cfg s m) evs).log := by
    obtain ⟨a, ha, hcmd⟩ := List.mem_filterMap.mp h
    cases a with
    | publish cmd' => cases hcmd; exact ha
    | infer obs t => cases hcmd
    | process raw => cases hcmd
  obtain ⟨pre, e, n, hpre, hmem, -⟩ := Logged.mem_run_log hact
  cases e with
  | jointState msg => cases hmem
  | imu msg => cases hmem
  | timer =>
      have hpub : published (n.timerCallback net).log ≠ [] :=
        List.ne_nil_of_mem (List.mem_filterMap.mpr ⟨_, hmem, rfl⟩)
      obtain ⟨n', hout⟩ := publish_tick hpub
      have hts := timerStep_of_ok hout
      have hmem' : Act.publish cmd ∈ (n.timerCallback net).log := hmem
      generalize (n.timerCallback net).log = l at hts hmem'
      cases hts with
      | waiting => cases hmem'
      | init => simp at hmem'
      | done => cases hmem'
      | @tick hw hi hd obs r dc₂ scaled target ho hr hp ht =>
          have hset := ((setup_processAction hp).trans
            (setup_updateMotion _ _)).trans (run_setup hpre)
          have hcmd : cmd = dc₂.actionToJointCmd target := by
            simpa using hmem'
          rw [hcmd]
          exact addressed_of_setup hrobot hset
            (target_length hrobot hset ht)

-- ====================================== the configuration of the robot

/-- `robot_joint_names` of `config/rl_config.yaml`. -/
def deployedJoints : List String := [
  "left_leg_pelvic_pitch_joint", "left_leg_pelvic_roll_joint",
  "left_leg_pelvic_yaw_joint", "left_leg_knee_pitch_joint",
  "left_leg_ankle_pitch_joint", "left_leg_ankle_roll_joint",
  "right_leg_pelvic_pitch_joint", "right_leg_pelvic_roll_joint",
  "right_leg_pelvic_yaw_joint", "right_leg_knee_pitch_joint",
  "right_leg_ankle_pitch_joint", "right_leg_ankle_roll_joint",
  "waist_yaw_joint", "head_yaw_joint", "head_pitch_joint",
  "left_shoulder_pitch_joint", "left_shoulder_roll_joint",
  "left_shoulder_yaw_joint", "left_elbow_pitch_joint",
  "left_wrist_yaw_joint", "right_shoulder_pitch_joint",
  "right_shoulder_roll_joint", "right_shoulder_yaw_joint",
  "right_elbow_pitch_joint", "right_wrist_yaw_joint"]

/-- `joint_name_map` of `config/rl_config.yaml`. -/
def deployedNames : List (String × String) := [
  ("leg_l1_joint", "left_leg_pelvic_pitch_joint"),
  ("leg_l2_joint", "left_leg_pelvic_roll_joint"),
  ("leg_l3_joint", "left_leg_pelvic_yaw_joint"),
  ("leg_l4_joint", "left_leg_knee_pitch_joint"),
  ("leg_l5_joint", "left_leg_ankle_pitch_joint"),
  ("leg_l6_joint", "left_leg_ankle_roll_joint"),
  ("leg_r1_joint", "right_leg_pelvic_pitch_joint"),
  ("leg_r2_joint", "right_leg_pelvic_roll_joint"),
  ("leg_r3_joint", "right_leg_pelvic_yaw_joint"),
  ("leg_r4_joint", "right_leg_knee_pitch_joint"),
  ("leg_r5_joint", "right_leg_ankle_pitch_joint"),
  ("leg_r6_joint", "right_leg_ankle_roll_joint")]

/-- The file's configuration, for a model of the same joints. -/
def deployed : BeyondMimicConfig ℚ :=
  { BeyondMimicConfig.init with
    jointNames := deployedJoints
    defaultDofPos := List.replicate 25 0
    actionScales := List.replicate 25 (1 / 4)
    robotJointNames := deployedJoints
    jointNameMap := deployedNames.foldl (fun m p => m.insert p.1 p.2) ∅
    maxTimestep := 8000 }

/-- A model that asks every joint for one scale. -/
def uniform : Policy ℚ :=
  Policy.ofFun 131 fun _ _ => { actions := List.replicate 25 1 }

/-- A command of the robot's own configuration: to different joints, all
of which the joint test tool knows. -/
theorem commands_addressed_deployed :
    ∃ cmd ∈ published (run uniform (start deployed 0 8000)
        twoReady).log,
      Addressed deployed cmd ∧ cmd.name.Nodup
        ∧ ∀ n ∈ cmd.name, n ∈ allJoints := by
  have hlog : ∃ cmd ∈ published (run uniform (start deployed 0 8000)
      twoReady).log, cmd.name.Nodup
        ∧ ∀ n ∈ cmd.name, n ∈ allJoints := by
    decide +kernel
  obtain ⟨cmd, hcmd, hnd, hknown⟩ := hlog
  exact ⟨cmd, hcmd, commands_addressed (by decide) hcmd, hnd, hknown⟩

end RLControllerNode

end RlDeploy
