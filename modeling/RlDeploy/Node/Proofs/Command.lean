/-
What a command is, in any arithmetic.

Nothing is assumed of the operations here, so what follows holds of the
machine's floats as well as of exact numbers: after every run the node
remembers the smoothed vector of all actions it has processed
(`memory_run`), and each command it publishes has, for a joint that the
model has, the one value `positionOf` computes from what is remembered
of the joint, its scale and the value it is added to, and the filler for
the other joints (`published_entry`). Results for one arithmetic start
from these two.
-/
import RlDeploy.Node.Proofs.Partial
import RlDeploy.Node.Proofs.Envelope

namespace RlDeploy

open Lib

variable {F D : Type} [Scalar F D]

namespace RLControllerNode

variable {cfg : BeyondMimicConfig F}

-- ========================================================== the memory

/-- What is remembered after the actions `raws`, from zero. -/
def memory (cfg : BeyondMimicConfig F) (raws : List (List F)) : List F :=
  raws.foldl
    (List.zipWith fun l r => (1 - cfg.actionBeta) * l + cfg.actionBeta * r)
    (List.replicate cfg.numDof 0)

theorem memory_snoc (cfg : BeyondMimicConfig F) (raws : List (List F))
    (raw : List F) :
    memory cfg (raws ++ [raw])
      = List.zipWith
        (fun l r => (1 - cfg.actionBeta) * l + cfg.actionBeta * r)
        (memory cfg raws) raw := by
  unfold memory
  rw [List.foldl_append]
  rfl

/-- Joint by joint the memory is a recurrence of its own. -/
theorem memory_getElem? {raws : List (List F)}
    (hraws : ∀ raw ∈ raws, raw.length = cfg.numDof) {i : Nat}
    (hi : i < cfg.numDof) :
    (memory cfg raws)[i]? = some ((raws.map fun raw => raw.getD i 0).foldl
      (fun l r => (1 - cfg.actionBeta) * l + cfg.actionBeta * r) 0) := by
  induction raws using List.reverseRecOn with
  | nil =>
      unfold memory
      simp [hi]
  | append_singleton raws raw ih =>
      have hraw : raw.length = cfg.numDof := hraws raw (by simp)
      have hr : raw[i]? = some (raw.getD i 0) := by
        rw [List.getD_eq_getElem?_getD, List.getElem?_eq_getElem
          (hraw ▸ hi)]
        rfl
      rw [memory_snoc, List.getElem?_zipWith,
        ih fun raw' h => hraws raw' (List.mem_append_left _ h), hr,
        List.map_append, List.foldl_append]
      rfl

section Run

variable [Eigen F] {net : Policy F} {n n' : RLControllerNode F D}

/-- The node at the end of a run: sound, and with the memory of what the
log shows as processed. -/
structure Remembering (cfg : BeyondMimicConfig F) (log : List (Act F D))
    (n : RLControllerNode F D) : Prop where
  sound : DataConverter.Sound (DataConverter.init.configure cfg)
    n.converter
  sized : ∀ raw ∈ processedActions log, raw.length = cfg.numDof
  memory : n.converter.lastAction = memory cfg (processedActions log)

omit [Eigen F] in
/-- One action more, whatever else the callback logged. -/
theorem Remembering.process {log l : List (Act F D)}
    (h : Remembering cfg log n) {raw : List F}
    {dc dc₂ : DataConverter F} {scaled : List F}
    (hb : (DataConverter.init.configure cfg).Ready)
    (hs : DataConverter.Sound (DataConverter.init.configure cfg) dc)
    (hlast : dc.lastAction = n.converter.lastAction)
    (hraw : raw.length = cfg.numDof)
    (hp : dc.processAction raw = .ok (dc₂, scaled))
    (hl : processedActions l = [raw]) (hn : n'.converter = dc₂) :
    Remembering cfg (log ++ l) n' := by
  have hdof := DataConverter.configure_numDof DataConverter.init cfg
  have hproc : processedActions (log ++ l)
      = processedActions log ++ [raw] := by
    rw [← hl]
    exact List.filterMap_append ..
  obtain ⟨hp', hs₂, -⟩ := hs.processAction hb.scales
    (hraw.trans hdof.symm)
  cases hp'.symm.trans hp
  obtain ⟨k, hcfg⟩ := hs.setup.config
  refine ⟨?_, ?_, ?_⟩
  · rw [hn]
    exact hs₂
  · rw [hproc]
    intro raw' hraw'
    rcases List.mem_append.mp hraw' with hraw' | hraw'
    · exact h.sized raw' hraw'
    · rw [List.mem_singleton.mp hraw', hraw]
  · rw [hproc, memory_snoc, hn, ← h.memory, ← hlast]
    show dc.smoothed raw = _
    rw [Sequential.smoothed_eq (hs.last.trans hs.setup.numDof.symm), hcfg]

omit [Eigen F] in
/-- A callback that processes nothing and leaves the converter. -/
theorem Remembering.quiet {log l : List (Act F D)}
    (h : Remembering cfg log n) (hl : processedActions l = [])
    (hn : n'.converter = n.converter) : Remembering cfg (log ++ l) n' := by
  have hproc : processedActions (log ++ l) = processedActions log := by
    unfold processedActions at hl ⊢
    rw [List.filterMap_append, hl, List.append_nil]
  refine ⟨?_, ?_, ?_⟩
  · rw [hn]
    exact h.sound
  · rw [hproc]
    exact h.sized
  · rw [hproc, hn]
    exact h.memory

/-- One callback. -/
theorem Remembering.step (hcfg : cfg.Runnable)
    (hnet : net.FullSize cfg.numDof cfg.numBodies)
    {log : List (Act F D)} (h : Remembering cfg log n) {e : Event D}
    (hstep : (RLControllerNode.step net n e).out = .ok n') :
    Remembering cfg (log ++ (RLControllerNode.step net n e).log) n' := by
  have hb := DataConverter.configure_ready DataConverter.init hcfg
  have hn := DataConverter.configure_numDof DataConverter.init cfg
  have hnb := DataConverter.configure_numBodies DataConverter.init cfg
  cases e with
  | jointState msg => cases hstep; exact h.quiet rfl rfl
  | imu msg => cases hstep; exact h.quiet rfl rfl
  | timer =>
      have hts := timerStep_of_ok hstep
      show Remembering cfg (log ++ (n.timerCallback net).log) n'
      generalize (n.timerCallback net).log = l at hts
      cases hts with
      | waiting => exact h.quiet rfl rfl
      | done => exact h.quiet rfl rfl
      | init hw hi hr hm hp =>
          obtain ⟨hlen, hmot⟩ := hnet _ _ _ hr
          rw [← hn, ← hnb] at hmot
          obtain ⟨dc₁, hm', hs₁⟩ := sound_initMotion hb h.sound hmot
          have hlast := congrArg DataConverter.lastAction
            (initMotion_ok_eq hm')
          rw [updateMotion_eq] at hlast
          cases hm'.symm.trans hm
          exact h.process hb hs₁ hlast hlen hp rfl rfl
      | @tick hw hi hd obs r dc₂ scaled target ho hr hp ht =>
          obtain ⟨hlen, hmot⟩ := hnet _ _ _ hr
          rw [← hn, ← hnb] at hmot
          have hs₁ := sound_updateMotion h.sound hmot
          have hlast : (updateMotion n.converter r).lastAction
              = n.converter.lastAction := by rw [updateMotion_eq]; rfl
          exact h.process hb hs₁ hlast hlen hp rfl
            (advance_converter _)

/-- Every run that returns. -/
theorem memory_run (hcfg : cfg.Runnable)
    (hnet : net.FullSize cfg.numDof cfg.numBodies) {s m : Int}
    {evs : List (Event D)}
    (h : (run net (start cfg s m) evs).out = .ok n) :
    Remembering cfg (run net (start cfg s m) evs).log n := by
  refine Logged.run_past (fun _ log n => Remembering cfg log n) ?_
    (fun _ hr hs => hr.step hcfg hnet hs) h
  refine ⟨DataConverter.configure_sound cfg, ?_, ?_⟩
  · intro raw hraw
    cases hraw
  · exact DataConverter.configure_lastAction DataConverter.init cfg

-- ========================================================= the command

omit [Scalar F D] [Eigen F] in
/-- Outside residual mode an action is added to the default position. -/
theorem base_default (hres : cfg.useResidualAction = false)
    (motion : MotionCommand F) (i : Nat) :
    cfg.base motion i = cfg.defaultDofPos[i]? := by
  unfold BeyondMimicConfig.base
  rw [hres, Bool.false_and, if_neg (by simp)]

omit [Eigen F] in
/-- The value of a command for a joint: what is remembered of it,
clipped and scaled, on its base value. -/
def positionOf (cfg : BeyondMimicConfig F) (residual : Bool)
    (base scale remembered : F) : F :=
  let action :=
    clamp remembered (-cfg.clipActions) cfg.clipActions * scale
  if residual then action + base else base + action

/-- The command a tick publishes, read off the node after the tick. -/
structure Entries (cfg : BeyondMimicConfig F)
    (n : RLControllerNode F D) (cmd : JointState D) : Prop where
  name : cmd.name = cfg.robotJointNames.map
    (DataConverter.init.configure cfg).wireName
  length : cmd.position.length = cfg.robotJointNames.length
  entry : ∀ (c i : Nat) (joint : String),
    cfg.robotJointNames[c]? = some joint →
    cfg.jointNames[i]? = some joint →
    ∃ x b k, n.converter.lastAction[i]? = some x
      ∧ cfg.base n.converter.command i = some b
      ∧ cfg.actionScales[i]? = some k
      ∧ cmd.position[c]? = some (Scalar.widen (positionOf cfg
        (cfg.useResidualAction && !n.converter.command.empty) b k x))
  filler : ∀ (c : Nat) (joint : String),
    cfg.robotJointNames[c]? = some joint → joint ∉ cfg.jointNames →
    cmd.position[c]? = some (Scalar.widen (0 : F))

omit [Eigen F] in
/-- The target of a joint, read through the configuration. -/
theorem jointTarget_scaled {dc dc₂ : DataConverter F} {raw : List F}
    (hs : DataConverter.Sound (DataConverter.init.configure cfg) dc)
    (hdc₂ : dc₂ = { dc with lastAction := dc.smoothed raw })
    (hsized : cfg.Sized) {i : Nat} {t : F}
    (ht : dc₂.jointTarget (dc.scaled raw) i = some t) :
    ∃ x b k, dc₂.lastAction[i]? = some x
      ∧ cfg.base dc₂.command i = some b ∧ cfg.actionScales[i]? = some k
      ∧ t = positionOf cfg (cfg.useResidualAction && !dc₂.command.empty)
        b k x := by
  obtain ⟨j, hcfg⟩ := hs.setup.config
  have hscaled := Sequential.scaled_eq hsized hs.setup raw
  subst hdc₂
  -- an entry of the scaled action is one of the remembered vector
  have hentry : ∀ v, (dc.scaled raw)[i]? = some v → ∃ x k,
      (dc.smoothed raw)[i]? = some x ∧ cfg.actionScales[i]? = some k
      ∧ v = clamp x (-cfg.clipActions) cfg.clipActions * k := by
    intro v hv
    rw [hscaled, List.getElem?_zipWith_eq_some] at hv
    obtain ⟨x, k, hx, hk, rfl⟩ := hv
    exact ⟨x, k, hx, hk, rfl⟩
  unfold DataConverter.jointTarget at ht
  unfold BeyondMimicConfig.base positionOf
  simp only [hcfg] at ht ⊢
  cases hres : cfg.useResidualAction && !dc.command.empty with
  | true =>
      simp only [hres, if_true, Option.bind_eq_bind,
        Option.bind_eq_some_iff] at ht ⊢
      obtain ⟨v, hv, b, hb, ht⟩ := ht
      cases ht
      obtain ⟨x, k, hx, hk, rfl⟩ := hentry v hv
      exact ⟨x, b, k, hx, hb, hk, rfl⟩
  | false =>
      simp only [hres, Bool.false_eq_true, if_false, Option.bind_eq_bind,
        Option.bind_eq_some_iff] at ht ⊢
      obtain ⟨b, hb, v, hv, ht⟩ := ht
      cases ht
      obtain ⟨x, k, hx, hk, rfl⟩ := hentry v hv
      exact ⟨x, b, k, hx, hb, hk, rfl⟩

omit [Eigen F] in
/-- The command of a converter that has processed an action. -/
theorem entries_of_processed (hj : cfg.jointNames.Nodup)
    (hr : cfg.robotJointNames.Nodup) (hrobot : cfg.robotJointNames ≠ [])
    (hsized : cfg.Sized) {dc dc₂ : DataConverter F}
    {raw action target : List F}
    (hs : DataConverter.Sound (DataConverter.init.configure cfg) dc)
    (hraw : raw.length = cfg.numDof)
    (hp : dc.processAction raw = .ok (dc₂, action))
    (ht : dc₂.computePdTarget action = .ok target)
    (hn : n.converter = dc₂) :
    Entries cfg n (dc₂.actionToJointCmd target) := by
  have hdof := DataConverter.configure_numDof DataConverter.init cfg
  have hb := DataConverter.configure_ready DataConverter.init
    (hsized.runnable (Or.inr hrobot))
  obtain ⟨hp', hs₂, hact⟩ := hs.processAction hb.scales
    (hraw.trans hdof.symm)
  cases hp'.symm.trans hp
  rw [DataConverter.computePdTarget_robot hrobot hsized hs₂
    (hact.trans hdof)] at ht
  cases ht
  refine ⟨?_, ?_, ?_, ?_⟩
  · rw [DataConverter.command_name hrobot hs₂]
    apply List.map_congr_left
    intro joint _
    exact hs₂.setup.wireName joint
  · rw [DataConverter.command_position hrobot hs₂, List.length_map,
      DataConverter.published_length]
  · intro c i joint hc hi
    obtain ⟨t, htar, hpub⟩ := DataConverter.published_match hrobot hsized
      hj hr hs₂ (hact.trans hdof) hc hi
    obtain ⟨x, b, k, hx, hbase, hk, rfl⟩ :=
      jointTarget_scaled hs rfl hsized htar
    rw [hn]
    refine ⟨x, b, k, hx, hbase, hk, ?_⟩
    rw [DataConverter.command_position hrobot hs₂, List.getElem?_map,
      hpub]
    rfl
  · intro c joint hc hn
    rw [DataConverter.command_position hrobot hs₂, List.getElem?_map,
      DataConverter.published_unmatched hj hr hc hn]
    rfl

/-- Every command of every run. -/
theorem published_entry (hj : cfg.jointNames.Nodup)
    (hr : cfg.robotJointNames.Nodup) (hrobot : cfg.robotJointNames ≠ [])
    (hsized : cfg.Sized) (hnet : net.FullSize cfg.numDof cfg.numBodies)
    {s m : Int} {evs : List (Event D)} {cmd : JointState D}
    (hcmd : cmd ∈ published
      (logAt net (start cfg s m) evs .timer)) :
    ∃ n, (run net (start cfg s m) (evs ++ [.timer])).out = .ok n
      ∧ Entries cfg n cmd := by
  have hdof := DataConverter.configure_numDof DataConverter.init cfg
  have hnb := DataConverter.configure_numBodies DataConverter.init cfg
  cases hrun : (run net (start cfg s m) evs).out with
  | error f =>
      unfold logAt at hcmd
      rw [hrun] at hcmd
      cases hcmd
  | ok n₀ =>
  have hs := run_sound (hsized.runnable (Or.inr hrobot)) hnet hrun
  have hat : logAt net (start cfg s m) evs .timer
      = (n₀.timerCallback net).log := by
    unfold logAt
    rw [hrun]
    rfl
  rw [hat] at hcmd
  obtain ⟨n, hout⟩ := publish_tick (List.ne_nil_of_mem hcmd)
  refine ⟨n, ?_, ?_⟩
  · have hsnoc := Logged.run_snoc .timer hrun
    unfold run
    rw [hsnoc]
    exact hout
  have hts := timerStep_of_ok hout
  generalize (n₀.timerCallback net).log = l at hts hcmd
  cases hts with
  | waiting => cases hcmd
  | init => cases hcmd
  | done => cases hcmd
  | @tick _ _ _ obs r dc₂ action target ho hinf hp htar =>
      have hcmd' : cmd = dc₂.actionToJointCmd target := by
        simpa [published] using hcmd
      obtain ⟨hlen, hmot⟩ := hnet _ _ _ hinf
      rw [← hdof, ← hnb] at hmot
      rw [hcmd']
      exact entries_of_processed hj hr hrobot hsized
        (sound_updateMotion hs hmot) hlen hp htar (advance_converter _)

end Run

end RLControllerNode

end RlDeploy
