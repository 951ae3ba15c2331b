/-
Which position goes to which joint: the targets of `computePdTarget`
through the name-built adapter into the command message.

The target of model joint `i` is computed in model order (`jointTarget`)
and published under the wire name of the robot joint with that name
(`published_match`). A robot joint that the model does not have gets the
adapter's filler `0` (`published_unmatched`): nothing checks that the
robot's names are among the model's.
-/
import RlDeploy.Converter.Proofs.Run

namespace RlDeploy

open Lib

variable {F D : Type} [Scalar F D]

namespace DataConverter

/-- The target of model joint `i`: the default, or in residual mode with
a motion command the reference position, plus the action. -/
def jointTarget (dc : DataConverter F) (action : List F) (i : Nat) :
    Option F :=
  if dc.cfg.useResidualAction && !dc.command.empty then do
    let s ← action[i]?
    let p ← dc.command.jointPos[i]?
    return s + p
  else do
    let d ← dc.cfg.defaultDofPos[i]?
    let s ← action[i]?
    return d + s

/-- The targets, read pointwise. -/
theorem targets_getElem? {dc : DataConverter F} {action : List F}
    {i : Nat} (hi : i < dc.numDof) :
    (dc.targets action)[i]? = dc.jointTarget action i := by
  unfold targets jointTarget
  split
  · rw [List.getElem?_zipWith, List.getElem?_take_of_lt hi,
      List.getElem?_take_of_lt hi]
    cases action[i]? <;> cases dc.command.jointPos[i]? <;> rfl
  · rw [List.getElem?_zipWith, List.getElem?_take_of_lt hi,
      List.getElem?_take_of_lt hi]
    cases dc.cfg.defaultDofPos[i]? <;> cases action[i]? <;> rfl

/-- Every model joint has a target. -/
theorem Sound.jointTarget {base dc : DataConverter F} (hb : base.Ready)
    (h : Sound base dc) {action : List F}
    (hact : action.length = base.numDof) {i : Nat}
    (hi : i < base.numDof) : ∃ t, dc.jointTarget action i = some t := by
  have hs : action[i]? = some action[i] := List.getElem?_eq_getElem _
  unfold DataConverter.jointTarget
  cases hres : dc.cfg.useResidualAction && !dc.command.empty with
  | true =>
      have hp : i < dc.command.jointPos.length := by
        rcases h.command with he | ⟨hp, -⟩
        · rw [he] at hres
          simp [MotionCommand.empty] at hres
        · omega
      rw [hs, List.getElem?_eq_getElem hp]
      exact ⟨_, rfl⟩
  | false =>
      have hd : i < dc.cfg.defaultDofPos.length := by
        rw [h.setup.cfg]
        exact lt_of_lt_of_le hi hb.default
      rw [hs, List.getElem?_eq_getElem hd]
      exact ⟨_, rfl⟩

-- ==================================================== the command message

/-- A command's entries, when the target has one entry a joint. -/
theorem actionToJointCmd_name {dc : DataConverter F} {target : List F}
    (h : target.length = dc.cfg.controlledNames.length) :
    (dc.actionToJointCmd target).name
      = dc.cfg.controlledNames.map dc.wireName := by
  show (target.zip dc.cfg.controlledNames).map
    (dc.wireName ∘ Prod.snd) = _
  rw [← List.map_map, List.map_snd_zip h.ge]

theorem actionToJointCmd_position {dc : DataConverter F}
    {target : List F}
    (h : target.length = dc.cfg.controlledNames.length) :
    (dc.actionToJointCmd target).position = target.map Scalar.widen := by
  show (target.zip dc.cfg.controlledNames).map
    (Scalar.widen ∘ Prod.fst) = _
  rw [← List.map_map, List.map_fst_zip h.le]

section Published

/-- The published target vector, in robot order. -/
def published (cfg : BeyondMimicConfig F) (dc : DataConverter F)
    (action : List F) : List F :=
  (DoFAdapter.build cfg.jointNames cfg.robotJointNames ∅).fitted
    (dc.targets action)

variable {cfg : BeyondMimicConfig F} {dc : DataConverter F}
  {action : List F}

theorem computePdTarget_robot (hrobot : cfg.robotJointNames ≠ [])
    (hsized : cfg.Sized) (hs : Sound (init.configure cfg) dc)
    (hact : action.length = cfg.numDof) :
    dc.computePdTarget action = .ok (published cfg dc action) := by
  have hne : dc.cfg.robotJointNames.isEmpty = false := by
    rw [hs.setup.cfg, configure_robotJointNames]
    rwa [List.isEmpty_eq_false_iff]
  have hready := configure_ready init (hsized.runnable (Or.inr hrobot))
  rw [hs.computePdTarget hready.default
    (by rw [configure_numDof, hact]), hne]
  simp only [Bool.false_eq_true, if_false]
  rw [hs.setup.model2robot, (configure_adapters _ hrobot).2]
  rfl

theorem published_length :
    (published cfg dc action).length = cfg.robotJointNames.length := by
  unfold published
  rw [DoFAdapter.fitted_length, DoFAdapter.build_tarLen]

theorem Sound.controlledNames (hrobot : cfg.robotJointNames ≠ [])
    (hs : Sound (init.configure cfg) dc) :
    dc.cfg.controlledNames = cfg.robotJointNames := by
  rw [hs.setup.cfg, configure_controlledNames _ hrobot]

/-- The command's names are the robot's joints' wire names, in robot
order. -/
theorem command_name (hrobot : cfg.robotJointNames ≠ [])
    (hs : Sound (init.configure cfg) dc) :
    (dc.actionToJointCmd (published cfg dc action)).name
      = cfg.robotJointNames.map dc.wireName := by
  have hn := hs.controlledNames hrobot
  rw [actionToJointCmd_name (by rw [published_length, hn]), hn]

theorem command_position (hrobot : cfg.robotJointNames ≠ [])
    (hs : Sound (init.configure cfg) dc) :
    (dc.actionToJointCmd (published cfg dc action)).position
      = (published cfg dc action).map Scalar.widen :=
  actionToJointCmd_position
    (by rw [published_length, hs.controlledNames hrobot])

/-- A robot joint that the model has gets the target computed for it. -/
theorem published_match (hrobot : cfg.robotJointNames ≠ [])
    (hsized : cfg.Sized) (hj : cfg.jointNames.Nodup)
    (hr : cfg.robotJointNames.Nodup)
    (hs : Sound (init.configure cfg) dc)
    (hact : action.length = cfg.numDof) {c i : Nat} {n : String}
    (hc : cfg.robotJointNames[c]? = some n)
    (hi : cfg.jointNames[i]? = some n) :
    ∃ t, dc.jointTarget action i = some t
      ∧ (published cfg dc action)[c]? = some t := by
  have hlt : i < cfg.numDof := (List.getElem?_eq_some_iff.mp hi).1
  have hn : dc.numDof = cfg.numDof := by
    rw [hs.setup.joints]
  have hready := configure_ready init (hsized.runnable (Or.inr hrobot))
  obtain ⟨t, ht⟩ := hs.jointTarget hready
    (by rw [configure_numDof, hact]) (by rw [configure_numDof]; exact hlt)
  refine ⟨t, ht, DoFAdapter.fitted_match hj hr hi hc ?_⟩
  rw [targets_getElem? (by rw [hn]; exact hlt), ht]

/-- A robot joint that the model does not have gets the filler. -/
theorem published_unmatched (hj : cfg.jointNames.Nodup)
    (hr : cfg.robotJointNames.Nodup) {c : Nat} {n : String}
    (hc : cfg.robotJointNames[c]? = some n) (hn : n ∉ cfg.jointNames) :
    (published cfg dc action)[c]? = some 0 :=
  DoFAdapter.fitted_unmatched hj hr hc hn

/-- Every position of a command is a computed target or the filler: for
the robot joint at `c`, if the model has it, the target computed for
that joint, whatever the two orders; if the model does not have it, the
filler `0` of the adapter, whatever the action. -/
theorem published_positions [Eigen F] (hj : cfg.jointNames.Nodup)
    (hr : cfg.robotJointNames.Nodup) (hrobot : cfg.robotJointNames ≠ [])
    (hsized : cfg.Sized) {ops : List (Op F D)}
    (hops : ∀ op ∈ ops, op.WellSized cfg.numDof cfg.numBodies)
    (hact : action.length = cfg.numDof) :
    ∃ dc target, (run (init.configure cfg) ops).out = .ok dc
      ∧ dc.computePdTarget action = .ok target
      ∧ (dc.actionToJointCmd target).name
        = cfg.robotJointNames.map dc.wireName
      ∧ (dc.actionToJointCmd target).position.length
        = cfg.robotJointNames.length
      ∧ ∀ (c : Nat) (n : String), cfg.robotJointNames[c]? = some n →
        (∀ i : Nat, cfg.jointNames[i]? = some n → ∃ t,
          dc.jointTarget action i = some t
          ∧ (dc.actionToJointCmd target).position[c]?
            = some (Scalar.widen t))
        ∧ (n ∉ cfg.jointNames →
          (dc.actionToJointCmd target).position[c]?
            = some (Scalar.widen (0 : F))) := by
  obtain ⟨dc, hrun, hs⟩ := run_configure_ok
    (hsized.runnable (Or.inr hrobot)) hops
  have hpos : (dc.actionToJointCmd (published cfg dc action)).position
      = (published cfg dc action).map Scalar.widen :=
    command_position hrobot hs
  refine ⟨dc, _, hrun, computePdTarget_robot hrobot hsized hs hact,
    command_name hrobot hs, ?_, ?_⟩
  · rw [hpos, List.length_map, published_length]
  · intro c n hc
    rw [hpos, List.getElem?_map]
    constructor
    · intro i hi
      obtain ⟨t, ht, hpub⟩ :=
        published_match hrobot hsized hj hr hs hact hc hi
      exact ⟨t, ht, by rw [hpub]; rfl⟩
    · intro hn
      rw [published_unmatched hj hr hc hn]
      rfl

theorem published_positions_crossed :
    ∃ dc target, (run (init.configure crossed) crossedOps).out = .ok dc
      ∧ dc.computePdTarget [1, 3] = .ok target
      ∧ (dc.actionToJointCmd target).name
        = crossed.robotJointNames.map dc.wireName
      ∧ (dc.actionToJointCmd target).position.length
        = crossed.robotJointNames.length
      ∧ ∀ (c : Nat) (n : String), crossed.robotJointNames[c]? = some n →
        (∀ i : Nat, crossed.jointNames[i]? = some n → ∃ t,
          dc.jointTarget [1, 3] i = some t
          ∧ (dc.actionToJointCmd target).position[c]?
            = some (Scalar.widen t))
        ∧ (n ∉ crossed.jointNames →
          (dc.actionToJointCmd target).position[c]?
            = some (Scalar.widen (0 : ℚ))) :=
  published_positions (by decide) (by decide) (by decide) crossed_sized
    crossedOps_wellSized rfl

/-- One model joint, and a robot joint of another name. -/
def foreign : BeyondMimicConfig ℚ :=
  { BeyondMimicConfig.init with
    jointNames := ["hip"]
    defaultDofPos := [1]
    actionScales := [1]
    robotJointNames := ["waist"] }

/-- On `foreign` the published position is no joint's target: `waist` is
commanded to `0`, the only computed target is `3`. -/
theorem published_foreign :
    foreign.jointNames.Nodup ∧ foreign.robotJointNames.Nodup
      ∧ foreign.robotJointNames ≠ [] ∧ foreign.Sized
      ∧ (init.configure foreign).computePdTarget [2] = .ok [0]
      ∧ ((init.configure foreign).actionToJointCmd [0]).name = ["waist"]
      ∧ ((init.configure foreign).actionToJointCmd [0]).position = [0]
      ∧ (init.configure foreign).jointTarget [2] 0 = some 3
      ∧ ¬ ∃ i : Nat, foreign.jointNames[i]? = foreign.robotJointNames[0]?
        ∧ (init.configure foreign).jointTarget [2] i = some 0 := by
  refine ⟨by decide, by decide, by decide, ⟨rfl, rfl⟩,
    by decide, by decide, by decide, by decide +kernel, ?_⟩
  rintro ⟨i, hi, -⟩
  have : "waist" ∈ foreign.jointNames := List.mem_of_getElem? hi
  exact absurd this (by decide)

end Published

end DataConverter

end RlDeploy
