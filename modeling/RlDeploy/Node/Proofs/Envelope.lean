/-
The safety envelope of the commands.

The smoothed action is remembered before it is clipped and may grow
without bound over a run. What bounds a command is the last step of
`processAction` alone: whatever the smoothed value, the emitted one is
clipped and scaled joint by joint (`scaled_bound`), so the target of a
model joint stays within `clip_actions * |action_scales|` of the value
it is added to (`jointTarget_bound`). The adapter then moves targets and
names together, so the bound of a joint arrives at the robot joint of
its name.

The value the action is added to is the default position, or in residual
mode the reference position of the last motion the model output, this
tick's included (`base`).
-/
import RlDeploy.Node.Proofs.Memory
import RlDeploy.Converter.Proofs.Target

namespace RlDeploy

open Lib

-- ======================================================== the converter

/-- The clamp leaves nothing outside its bounds. -/
theorem abs_clamp_le {v c : ℚ} (hc : 0 ≤ c) : |clamp v (-c) c| ≤ c := by
  have hlo : Scalar.lt v (-c) = decide (v < -c) := rfl
  have hhi : Scalar.lt c v = decide (c < v) := rfl
  unfold clamp
  rw [hlo, hhi]
  by_cases h₁ : v < -c
  case pos =>
    rw [if_pos (decide_eq_true h₁), abs_neg, abs_of_nonneg hc]
  by_cases h₂ : c < v
  case pos =>
    rw [if_neg (by simpa using h₁), if_pos (decide_eq_true h₂),
      abs_of_nonneg hc]
  rw [if_neg (by simpa using h₁), if_neg (by simpa using h₂)]
  exact abs_le.mpr ⟨not_lt.mp h₁, not_lt.mp h₂⟩

/-- The value the action of model joint `i` is added to: the default,
or in residual mode with a motion the reference position. -/
def BeyondMimicConfig.base {F : Type} (cfg : BeyondMimicConfig F)
    (motion : MotionCommand F) (i : Nat) : Option F :=
  if cfg.useResidualAction && !motion.empty then motion.jointPos[i]?
  else cfg.defaultDofPos[i]?

namespace DataConverter

variable {dc : DataConverter ℚ}

/-- An emitted action is within the clip, times its joint's scale,
whatever was remembered and whatever the model returned. -/
theorem scaled_bound (hclip : 0 ≤ dc.cfg.clipActions) {raw : List ℚ}
    {i : Nat} {v : ℚ} (h : (dc.scaled raw)[i]? = some v) :
    ∃ k, dc.cfg.actionScales[i]? = some k
      ∧ |v| ≤ dc.cfg.clipActions * |k| := by
  unfold scaled at h
  rw [List.getElem?_zipWith_eq_some] at h
  obtain ⟨a, k, -, hk, rfl⟩ := h
  refine ⟨k, ?_, ?_⟩
  · rw [List.getElem?_take] at hk
    split at hk
    · exact hk
    · cases hk
  · rw [abs_mul]
    exact mul_le_mul_of_nonneg_right (abs_clamp_le hclip) (abs_nonneg k)

/-- So the target of a joint is near the value it is added to. -/
theorem jointTarget_bound {action : List ℚ} {i : Nat} {t bound : ℚ}
    (h : dc.jointTarget action i = some t)
    (hact : ∀ v, action[i]? = some v → |v| ≤ bound) :
    ∃ b, dc.cfg.base dc.command i = some b ∧ |t - b| ≤ bound := by
  unfold jointTarget at h
  unfold BeyondMimicConfig.base
  cases hres : dc.cfg.useResidualAction && !dc.command.empty with
  | true =>
      simp only [hres, if_true, Option.bind_eq_bind,
        Option.bind_eq_some_iff] at h ⊢
      obtain ⟨v, hv, p, hp, h⟩ := h
      cases h
      exact ⟨p, hp, by rw [add_sub_cancel_right]; exact hact v hv⟩
  | false =>
      simp only [hres, Bool.false_eq_true, if_false, Option.bind_eq_bind,
        Option.bind_eq_some_iff] at h ⊢
      obtain ⟨d, hd, v, hv, h⟩ := h
      cases h
      exact ⟨d, hd, by rw [add_sub_cancel_left]; exact hact v hv⟩

end DataConverter

-- ============================================================= the node

namespace RLControllerNode

open RlDeploy.Sequential

section Bound

variable [Eigen ℚ] {cfg : BeyondMimicConfig ℚ}
  {f : List ℚ → Int → InferenceResult ℚ}

omit [Eigen ℚ] in
/-- A command within its envelope: the robot's joints under their wire
names, each within `clip_actions * |action_scales|` of the base value of
the model joint of its name. -/
structure InEnvelope (cfg : BeyondMimicConfig ℚ)
    (motion : MotionCommand ℚ) (cmd : JointState ℚ) : Prop where
  name : cmd.name = cfg.robotJointNames.map
    (DataConverter.init.configure cfg).wireName
  length : cmd.position.length = cfg.robotJointNames.length
  near : ∀ (c : Nat) (joint : String),
    cfg.robotJointNames[c]? = some joint →
    ∃ (i : Nat) (p b k : ℚ), cfg.jointNames[i]? = some joint
      ∧ cmd.position[c]? = some p ∧ cfg.base motion i = some b
      ∧ cfg.actionScales[i]? = some k
      ∧ |p - b| ≤ cfg.clipActions * |k|

omit [Eigen ℚ] in
/-- The command of a sound converter on an action it clipped. -/
theorem inEnvelope_of_sound (hclip : 0 ≤ cfg.clipActions)
    (hj : cfg.jointNames.Nodup) (hr : cfg.robotJointNames.Nodup)
    (hrobot : cfg.robotJointNames ≠ [])
    (hsub : cfg.robotJointNames ⊆ cfg.jointNames) (hsized : cfg.Sized)
    {dc dc₂ : DataConverter ℚ} {raw action target : List ℚ}
    (hs : DataConverter.Sound (DataConverter.init.configure cfg) dc)
    (hraw : raw.length = cfg.numDof)
    (hp : dc.processAction raw = .ok (dc₂, action))
    (ht : dc₂.computePdTarget action = .ok target) :
    InEnvelope cfg dc₂.command (dc₂.actionToJointCmd target) := by
  have hn := DataConverter.configure_numDof DataConverter.init cfg
  have hb := DataConverter.configure_ready DataConverter.init
    (hsized.runnable (Or.inr hrobot))
  obtain ⟨k, hcfg⟩ := hs.setup.config
  obtain ⟨hp', hs₂, hlen⟩ := hs.processAction hb.scales
    (hraw.trans hn.symm)
  rw [hp'] at hp
  cases hp
  rw [DataConverter.computePdTarget_robot hrobot hsized hs₂
    (hlen.trans hn)] at ht
  cases ht
  refine ⟨?_, ?_, ?_⟩
  · rw [DataConverter.command_name hrobot hs₂]
    apply List.map_congr_left
    intro joint _
    exact hs₂.setup.wireName joint
  · rw [DataConverter.command_position hrobot hs₂, List.length_map,
      DataConverter.published_length]
  · intro c joint hc
    obtain ⟨i, hi⟩ :=
      List.mem_iff_getElem?.mp (hsub (List.mem_of_getElem? hc))
    obtain ⟨t, ht, hpub⟩ := DataConverter.published_match hrobot hsized
      hj hr hs₂ (hlen.trans hn) hc hi
    obtain ⟨scale, hscale⟩ : ∃ v, cfg.actionScales[i]? = some v :=
      ⟨_, List.getElem?_eq_getElem (by
        rw [hsized.actionScales]
        exact (List.getElem?_eq_some_iff.mp hi).1)⟩
    have hact : ∀ v, (dc.scaled raw)[i]? = some v →
        |v| ≤ cfg.clipActions * |scale| := by
      intro v hv
      obtain ⟨k', hk', hle⟩ := DataConverter.scaled_bound
        (by rw [hcfg]; exact hclip) hv
      rw [hcfg] at hk' hle
      cases hk'.symm.trans hscale
      exact hle
    obtain ⟨b, hbase, hle⟩ := DataConverter.jointTarget_bound ht hact
    refine ⟨i, t, b, scale, hi, ?_, ?_, hscale, hle⟩
    · rw [DataConverter.command_position hrobot hs₂, List.getElem?_map,
        hpub]
      rfl
    · rw [← hbase]
      show _ = BeyondMimicConfig.base dc.cfg _ i
      rw [hcfg]
      rfl

/-- Every command of every run is in its envelope, measured from the
last motion the model has output by the end of the tick. -/
theorem envelope (hclip : 0 ≤ cfg.clipActions)
    (hj : cfg.jointNames.Nodup) (hr : cfg.robotJointNames.Nodup)
    (hrobot : cfg.robotJointNames ≠ [])
    (hsub : cfg.robotJointNames ⊆ cfg.jointNames) (hsized : cfg.Sized)
    (hf : ∀ obs t, (f obs t).WellSized cfg.numDof cfg.numBodies)
    (obsSize : Nat) (s m : Int) (evs : List (Event ℚ)) :
    ∀ cmd ∈ published
        (logAt (Policy.ofFun obsSize f) (start cfg s m) evs .timer),
      InEnvelope cfg
        (motionCommand (answers f (run (Policy.ofFun obsSize f)
          (start cfg s m) (evs ++ [.timer])).log)) cmd := by
  intro cmd hcmd
  have hn := DataConverter.configure_numDof DataConverter.init cfg
  have hnb := DataConverter.configure_numBodies DataConverter.init cfg
  have hnet : (Policy.ofFun obsSize f).WellSized cfg.numDof
      cfg.numBodies := fun obs t => ⟨_, rfl, hf obs t⟩
  obtain ⟨n, hrun, hs⟩ := run_ok (D := ℚ)
    (hsized.runnable (Or.inr hrobot)) hnet s m evs
  have hat : logAt (Policy.ofFun obsSize f) (start cfg s m) evs .timer
      = (n.timerCallback (Policy.ofFun obsSize f)).log := by
    unfold logAt
    rw [hrun]
    rfl
  rw [hat] at hcmd
  obtain ⟨n', hout⟩ := publish_tick (List.ne_nil_of_mem hcmd)
  have hend : (run (Policy.ofFun obsSize f) (start cfg s m)
      (evs ++ [.timer])).out = .ok n' := by
    have hsnoc := Logged.run_snoc .timer hrun
    unfold run
    rw [hsnoc]
    exact hout
  -- what the history calls the last motion is what the tick used
  have hmotion : motionCommand (answers f (run (Policy.ofFun obsSize f)
      (start cfg s m) (evs ++ [.timer])).log) = n'.converter.command :=
    (congrArg DataConverter.command (remembers_run hend).converter).symm
  have ht := timerStep_of_ok hout
  generalize (n.timerCallback (Policy.ofFun obsSize f)).log = l
    at ht hcmd
  cases ht with
  | waiting => cases hcmd
  | init => cases hcmd
  | done => cases hcmd
  | @tick _ _ _ obs r dc₂ action target ho hnet hp htar =>
      cases hnet
      have hcmd' : cmd = dc₂.actionToJointCmd target := by
        simpa [published] using hcmd
      obtain ⟨hact, hmot⟩ := hf obs n.timestep
      rw [← hn, ← hnb] at hmot
      have hs₁ := sound_updateMotion hs hmot
      rw [hcmd', hmotion, advance_converter]
      exact inEnvelope_of_sound hclip hj hr hrobot hsub hsized hs₁ hact
        hp htar

end Bound

/-- `crossed` in residual mode. -/
def residual : BeyondMimicConfig ℚ :=
  { DataConverter.crossed with useResidualAction := true }

theorem residual_sized : residual.Sized := ⟨rfl, rfl⟩

/-- The tick after the dry run, in residual mode. -/
theorem envelope_residual :
    ∃ cmd ∈ published (logAt (Policy.ofFun 19 fun _ _ => fullResult)
        (start residual 3 (-1)) (twoReady.take 3) .timer),
      InEnvelope residual
        (motionCommand (answers (fun _ _ => fullResult)
          (run (Policy.ofFun 19 fun _ _ => fullResult)
            (start residual 3 (-1)) (twoReady.take 3 ++ [.timer])).log))
        cmd := by
  have hpub : published (logAt (Policy.ofFun 19 fun _ _ => fullResult)
      (start residual 3 (-1)) (twoReady.take 3) .timer) ≠ [] := by
    decide +kernel
  have hclip : 0 ≤ residual.clipActions := by decide +kernel
  have hf : ∀ (_ : List ℚ) (_ : Int), fullResult.WellSized
      residual.numDof residual.numBodies :=
    fun _ _ => fullResult_wellSized
  obtain ⟨cmd, hcmd⟩ := List.exists_mem_of_ne_nil _ hpub
  exact ⟨cmd, hcmd, envelope hclip (by decide) (by decide) (by decide)
    (by decide) residual_sized hf 19 3 (-1) (twoReady.take 3) cmd hcmd⟩

end RLControllerNode

end RlDeploy
