/-
The 1:1 mode against the identity mapping: a configuration without robot
joint names, which its comment documents as "1:1 with model joint_names",
and the same configuration with the model's names given as the robot's.

The two agree on `setMotionCommand`, `processAction` and
`computePdTarget`. They part in two places, because `configure` builds
neither the adapters nor the reverse name map in the 1:1 mode:

- `buildObservation` reorders through the unbuilt adapter, whose result
  is empty, and then reads `numDof` entries of it;
- `actionToJointCmd` publishes model names where the identity mapping
  publishes wire names.

That is exact: a sequence of calls behaves alike on both (`Agree`) if
and only if it stays clear of these two (`AgreesOn`).
-/
import RlDeploy.Converter.Proofs.Run

namespace RlDeploy

open Lib

variable {F D : Type} [Scalar F D]

/-- The configuration with the identity mapping written out. -/
def BeyondMimicConfig.withIdentity (cfg : BeyondMimicConfig F) :
    BeyondMimicConfig F :=
  { cfg with robotJointNames := cfg.jointNames }

namespace DoFAdapter

/-- Between one name list and itself the adapter changes nothing. -/
theorem fitted_self {names : List String} (hnd : names.Nodup)
    {data : List F} (hlen : data.length = names.length) :
    (build names names ∅).fitted data = data := by
  apply List.ext_getElem?
  intro i
  rcases Nat.lt_or_ge i names.length with hi | hi
  · have hn : names[i]? = some names[i] := List.getElem?_eq_getElem hi
    have hd : data[i]? = some data[i] := List.getElem?_eq_getElem _
    rw [fitted_match hnd hnd hn hn hd, hd]
  · rw [List.getElem?_eq_none (by rw [fitted_length]; exact hi),
      List.getElem?_eq_none (by rw [hlen]; exact hi)]

end DoFAdapter

namespace DataConverter

/-- A call on which the 1:1 mode does what the identity mapping does: no
observation of a joint, no command of a joint that `joint_name_map`
renames. -/
def AgreesOn (cfg : BeyondMimicConfig F) : Op F D → Prop
  | .buildObservation .. => cfg.numDof = 0
  | .actionToJointCmd target =>
      ∀ n ∈ cfg.jointNames.take target.length,
        (lastKey cfg.jointNameMap.toList n).getD n = n
  | .setMotionCommand _ | .setBase .. | .processAction _
  | .computePdTarget _ => True

/-- Both converters make every call without an index out of range, and
return the same values. -/
def Agree [Eigen F] (cfg : BeyondMimicConfig F)
    (ops : List (Op F D)) : Prop :=
  ∃ dc dc', (run (init.configure cfg) ops).out = .ok dc
    ∧ (run (init.configure cfg.withIdentity) ops).out = .ok dc'
    ∧ (run (init.configure cfg) ops).log
      = (run (init.configure cfg.withIdentity) ops).log

section Simulation

variable {cfg : BeyondMimicConfig F}

/-- The simulation relation: each converter in its own setup, with the
members that calls change in common. -/
structure Twin (cfg : BeyondMimicConfig F) (dc dc' : DataConverter F) :
    Prop where
  sound : Sound (init.configure cfg) dc
  sound' : Sound (init.configure cfg.withIdentity) dc'
  command : dc.command = dc'.command
  last : dc.lastAction = dc'.lastAction
  align : dc.initAlign = dc'.initAlign

theorem twin_init (cfg : BeyondMimicConfig F) :
    Twin cfg (init.configure cfg) (init.configure cfg.withIdentity) := by
  refine ⟨configure_sound _, configure_sound _, ?_, ?_, ?_⟩
  · rw [configure_command, configure_command]
  · rw [configure_lastAction, configure_lastAction]
    rfl
  · unfold configure
    dsimp only
    split <;> split <;> rfl

/-- The two configurations differ in the robot's names alone. -/
theorem Twin.cfg_eq {dc dc' : DataConverter F} (h : Twin cfg dc dc') :
    ∃ k : Nat, dc.cfg = { cfg with anchorBodyIndex := k }
      ∧ dc'.cfg = { cfg.withIdentity with anchorBodyIndex := k } := by
  rw [h.sound.setup.cfg, h.sound'.setup.cfg, configure_cfg, configure_cfg]
  unfold BeyondMimicConfig.setAnchorBodyIndex
  cases hf : cfg.bodyNames.findIdx? (· == cfg.anchorBodyName) with
  | none =>
      refine ⟨0, rfl, ?_⟩
      have hf' : cfg.withIdentity.bodyNames.findIdx?
          (· == cfg.withIdentity.anchorBodyName) = none := hf
      rw [hf']
      rfl
  | some i =>
      refine ⟨i, rfl, ?_⟩
      have hf' : cfg.withIdentity.bodyNames.findIdx?
          (· == cfg.withIdentity.anchorBodyName) = some i := hf
      rw [hf']

theorem Twin.numDof {dc dc' : DataConverter F} (h : Twin cfg dc dc') :
    dc.numDof = cfg.numDof ∧ dc'.numDof = cfg.numDof := by
  constructor
  · rw [h.sound.setup.joints]
  · rw [h.sound'.setup.numDof, configure_numDof]
    rfl

/-- In the 1:1 mode the reverse name map is never filled. -/
theorem wireName_oneToOne (hempty : cfg.robotJointNames = [])
    {dc : DataConverter F} (hs : Sound (init.configure cfg) dc)
    (n : String) : dc.wireName n = n := by
  unfold wireName
  rw [hs.setup.names, (configure_oneToOne init hempty).2]
  rfl

theorem wireName_identity (hpos : cfg.jointNames ≠ [])
    {dc' : DataConverter F}
    (hs : Sound (init.configure cfg.withIdentity) dc') (n : String) :
    dc'.wireName n = (lastKey cfg.jointNameMap.toList n).getD n := by
  rw [hs.setup.wireName, configure_wireName _ hpos]
  show ((lastKey cfg.jointNameMap.toList n).or none).getD n = _
  rw [Option.or_none]

/-- Both configurations control the model's joints, in model order. -/
theorem Twin.controlledNames (hempty : cfg.robotJointNames = [])
    {dc dc' : DataConverter F} (h : Twin cfg dc dc') :
    dc.cfg.controlledNames = cfg.jointNames
      ∧ dc'.cfg.controlledNames = cfg.jointNames := by
  obtain ⟨k, hk, hk'⟩ := h.cfg_eq
  rw [hk, hk']
  unfold BeyondMimicConfig.controlledNames BeyondMimicConfig.withIdentity
  simp [hempty]

/-- The targets agree: the identity adapter changes nothing. -/
theorem Twin.computePdTarget (hempty : cfg.robotJointNames = [])
    (hpos : cfg.jointNames ≠ []) (hj : cfg.jointNames.Nodup)
    (hsized : cfg.Sized) {dc dc' : DataConverter F}
    (h : Twin cfg dc dc') {action : List F}
    (hact : action.length = cfg.numDof) :
    ∃ target, dc.computePdTarget action = .ok target
      ∧ dc'.computePdTarget action = .ok target := by
  obtain ⟨k, hk, hk'⟩ := h.cfg_eq
  obtain ⟨hn, hn'⟩ := h.numDof
  have hdef : dc.numDof ≤ dc.cfg.defaultDofPos.length := by
    rw [hn, hk]
    exact hsized.defaultDofPos.ge
  have hdef' : dc'.numDof ≤ dc'.cfg.defaultDofPos.length := by
    rw [hn', hk']
    exact hsized.defaultDofPos.ge
  have htgt : dc.targets action = dc'.targets action := by
    unfold targets
    rw [hn, hn', h.command, hk, hk']
    rfl
  have hlen : (dc.targets action).length = cfg.jointNames.length := by
    rw [targets_length hdef h.sound.commandReadable (by rw [hn, hact]), hn]
    rfl
  refine ⟨dc.targets action, ?_, ?_⟩
  · rw [computePdTarget_eq hdef h.sound.commandReadable
      (by rw [hn, hact]), hk]
    simp [hempty]
  · rw [computePdTarget_eq hdef' h.sound'.commandReadable
      (by rw [hn', hact]), hk']
    have hne : cfg.jointNames.isEmpty = false := by
      rwa [List.isEmpty_eq_false_iff]
    simp only [BeyondMimicConfig.withIdentity, hne, Bool.false_eq_true,
      if_false]
    rw [h.sound'.setup.model2robot, (configure_adapters _ hpos).2]
    show Except.ok ((DoFAdapter.build cfg.jointNames cfg.jointNames
      ∅).fitted (dc'.targets action)) = _
    rw [← htgt, DoFAdapter.fitted_self hj hlen]

/-- The smoothed and the scaled actions agree. -/
theorem Twin.processAction {dc dc' : DataConverter F}
    (h : Twin cfg dc dc') (raw : List F) :
    dc.smoothed raw = dc'.smoothed raw
      ∧ dc.scaled raw = dc'.scaled raw := by
  obtain ⟨k, hk, hk'⟩ := h.cfg_eq
  obtain ⟨hn, hn'⟩ := h.numDof
  have hs : dc.smoothed raw = dc'.smoothed raw := by
    unfold smoothed
    rw [hn, hn', h.last, hk, hk']
    rfl
  refine ⟨hs, ?_⟩
  unfold scaled
  rw [hs, hn, hn', hk, hk']
  rfl

/-- The command messages agree exactly when no commanded joint is
renamed. -/
theorem Twin.actionToJointCmd_iff (hempty : cfg.robotJointNames = [])
    (hpos : cfg.jointNames ≠ []) {dc dc' : DataConverter F}
    (h : Twin cfg dc dc') (target : List F) :
    dc.actionToJointCmd target = dc'.actionToJointCmd target
      ↔ ∀ n ∈ cfg.jointNames.take target.length,
        (lastKey cfg.jointNameMap.toList n).getD n = n := by
  obtain ⟨hc, hc'⟩ := h.controlledNames hempty
  -- the commanded names are the second components of the zip
  have hzip : (target.zip cfg.jointNames).map Prod.snd
      = cfg.jointNames.take target.length := by
    apply List.ext_getElem?
    intro i
    rw [List.getElem?_map, List.getElem?_take]
    rcases Nat.lt_or_ge i target.length with hi | hi
    · rw [if_pos hi]
      cases hn : cfg.jointNames[i]? with
      | none =>
          rw [List.getElem?_eq_none]
          · rfl
          · rw [List.length_zip]
            have := List.getElem?_eq_none_iff.mp hn
            omega
      | some n =>
          rw [List.getElem?_zip_eq_some (z := (target[i], n)) |>.mpr
            ⟨List.getElem?_eq_getElem hi, hn⟩]
          rfl
    · rw [if_neg (by omega), List.getElem?_eq_none]
      · rfl
      · rw [List.length_zip]
        omega
  have hnames : dc.actionToJointCmd target = dc'.actionToJointCmd target
      ↔ (target.zip cfg.jointNames).map (fun p => dc.wireName p.2)
        = (target.zip cfg.jointNames).map (fun p => dc'.wireName p.2) := by
    unfold actionToJointCmd
    rw [hc, hc']
    simp
  rw [hnames, ← hzip]
  simp only [List.map_inj_left, List.mem_map, forall_exists_index, and_imp,
    forall_apply_eq_imp_iff₂, wireName_oneToOne hempty h.sound,
    wireName_identity hpos h.sound']
  exact forall₂_congr fun _ _ => eq_comm

variable [Eigen F]

/-- With a joint, the 1:1 mode observes through an empty adapter and
reads past its end. -/
theorem oneToOne_buildObservation (hempty : cfg.robotJointNames = [])
    (hpos : cfg.jointNames ≠ []) {dc : DataConverter F}
    (hs : Sound (init.configure cfg) dc) {w : Vec3 F} {q : Quat F}
    {names : List String} {pos vel : List D} :
    ∀ obs, dc.buildObservation w q names pos vel ≠ .ok obs := by
  intro obs hobs
  have htar := (buildObservation_isOk_iff.mp ⟨obs, hobs⟩).tarLen
  rw [hs.setup.joints, hs.setup.robot2model,
    (configure_oneToOne init hempty).1] at htar
  have : cfg.jointNames = [] :=
    List.length_eq_zero_iff.mp (Nat.le_zero.mp htar)
  exact hpos this

/-- One call they agree on keeps the relation. -/
theorem twin_step (hempty : cfg.robotJointNames = [])
    (hpos : cfg.jointNames ≠ []) (hj : cfg.jointNames.Nodup)
    (hsized : cfg.Sized) {dc dc' : DataConverter F}
    (h : Twin cfg dc dc') (op : Op F D)
    (hop : op.WellSized cfg.numDof cfg.numBodies)
    (hagree : AgreesOn cfg op) :
    (step dc op).log = (step dc' op).log ∧
      ∃ s s', (step dc op).out = .ok s ∧ (step dc' op).out = .ok s'
        ∧ Twin cfg s s' := by
  have hs := h.sound
  have hs' := h.sound'
  cases op with
  | setMotionCommand cmd =>
      have hcmd : cmd.Sized cfg.numDof cfg.numBodies := hop
      refine ⟨rfl, _, _, rfl, rfl, hs.withCommand ?_, hs'.withCommand ?_,
        rfl, h.last, h.align⟩
      · rw [configure_numDof, configure_numBodies]
        exact hcmd
      · rw [configure_numDof, configure_numBodies]
        exact hcmd
  | setBase quat p yawOnly xyOnly =>
      exact ⟨rfl, _, _, rfl, rfl, hs.withAlign _, hs'.withAlign _,
        h.command, h.last, rfl⟩
  | buildObservation w q names pos vel =>
      exact absurd (List.length_eq_zero_iff.mp hagree) hpos
  | processAction raw =>
      have hraw : raw.length = cfg.numDof := hop
      obtain ⟨hsm, hsc⟩ := h.processAction raw
      have hn := configure_numDof init cfg
      have hn' := configure_numDof init cfg.withIdentity
      have hready' : (init.configure cfg.withIdentity).Ready :=
        configure_ready init
          (BeyondMimicConfig.Sized.runnable ⟨hsized.1, hsized.2⟩
            (Or.inr hpos))
      obtain ⟨hp, hsnd, -⟩ := hs.processAction
        (by
          rw [configure_numDof, configure_cfg]
          obtain ⟨k, hk, -⟩ := cfg.setAnchorBodyIndex_eq
          rw [hk]
          exact hsized.actionScales.ge)
        (hraw.trans hn.symm)
      obtain ⟨hp', hsnd', -⟩ := hs'.processAction hready'.scales
        (hraw.trans hn'.symm)
      exact ⟨by simp [step, hp, hp', hsc], _, _, by simp [step, hp],
        by simp [step, hp'], hsnd, hsnd', h.command, hsm, h.align⟩
  | computePdTarget action =>
      have hact : action.length = cfg.numDof := hop
      obtain ⟨t, ht, ht'⟩ := h.computePdTarget hempty hpos hj hsized hact
      refine ⟨by simp [step, ht, ht'], dc, dc', by simp [step, ht],
        by simp [step, ht'], h⟩
  | actionToJointCmd target =>
      have heq := (h.actionToJointCmd_iff hempty hpos target).mpr hagree
      refine ⟨by simp [step, heq], dc, dc', by simp [step],
        by simp [step], h⟩

/-- From related states, runs that agree contain only calls the modes
agree on. -/
theorem agreesOn_of_agree (hempty : cfg.robotJointNames = [])
    (hpos : cfg.jointNames ≠ []) (hj : cfg.jointNames.Nodup)
    (hsized : cfg.Sized) :
    ∀ {ops : List (Op F D)} {dc dc' s s' : DataConverter F},
      Twin cfg dc dc' →
      (∀ op ∈ ops, op.WellSized cfg.numDof cfg.numBodies) →
      (run dc ops).out = .ok s → (run dc' ops).out = .ok s' →
      (run dc ops).log = (run dc' ops).log →
      ∀ op ∈ ops, AgreesOn cfg op := by
  intro ops
  induction ops with
  | nil => intro _ _ _ _ _ _ _ _ _ op hop; cases hop
  | cons op ops ih =>
      intro dc dc' s s' h hops hrun hrun' hlog
      unfold run at hrun hrun' hlog
      rw [Logged.run_cons] at hrun hrun' hlog
      rw [Logged.run_cons] at hlog
      have hagree : AgreesOn cfg op := by
        cases op with
        | setMotionCommand _ => trivial
        | setBase _ _ _ _ => trivial
        | processAction _ => trivial
        | computePdTarget _ => trivial
        | buildObservation w q names pos vel =>
            exfalso
            obtain ⟨s₁, h₁, -⟩ := Logged.bind_out_ok hrun
            cases hb : dc.buildObservation w q names pos vel with
            | ok obs =>
                exact oneToOne_buildObservation hempty hpos h.sound obs hb
            | error e => simp [step, hb] at h₁
        | actionToJointCmd target =>
            apply (h.actionToJointCmd_iff hempty hpos target).mp
            simp only [step, Logged.emit_eq, Logged.pure_eq,
              Logged.mk_ok_bind, List.cons_append, List.nil_append,
              List.cons.injEq, Out.command.injEq] at hlog
            exact hlog.1
      obtain ⟨hl, s₁, s₁', h₁, h₁', h'⟩ := twin_step hempty hpos hj hsized h op
        (hops op (List.mem_cons_self ..)) hagree
      rw [Logged.bind_of_ok _ h₁] at hrun hlog
      rw [Logged.bind_of_ok _ h₁'] at hrun' hlog
      have hrest := ih h' (fun o ho => hops o (List.mem_cons_of_mem op ho))
        hrun hrun' (by
          have hl' : (step dc op).log ++ (Logged.run step s₁ ops).log
              = (step dc' op).log ++ (Logged.run step s₁' ops).log := hlog
          rw [hl] at hl'
          exact List.append_cancel_left hl')
      intro o ho
      rcases List.mem_cons.mp ho with rfl | ho
      · exact hagree
      · exact hrest o ho

/-- The 1:1 mode agrees with the identity mapping on a sequence of
well-sized calls if and only if no call observes a joint and no call
commands a joint that `joint_name_map` renames. -/
theorem oneToOne_agree_iff (hempty : cfg.robotJointNames = [])
    (hj : cfg.jointNames.Nodup) (hsized : cfg.Sized)
    {ops : List (Op F D)}
    (hops : ∀ op ∈ ops, op.WellSized cfg.numDof cfg.numBodies) :
    Agree cfg ops ↔ ∀ op ∈ ops, AgreesOn cfg op := by
  by_cases hpos : cfg.jointNames = []
  case pos =>
    -- without joints the two configurations are one
    have hid : cfg.withIdentity = cfg :=
      congrArg (fun r => { cfg with robotJointNames := r })
        (hpos.trans hempty.symm)
    have hzero : cfg.numDof = 0 := by
      unfold BeyondMimicConfig.numDof
      rw [hpos, List.length_nil]
    constructor
    · intro _ op _
      cases op with
      | buildObservation => exact hzero
      | actionToJointCmd target =>
          intro n hn
          rw [hpos, List.take_nil] at hn
          cases hn
      | _ => trivial
    · intro _
      obtain ⟨dc, hrun, -⟩ := run_configure_ok
        (hsized.runnable (Or.inl hzero)) hops
      unfold Agree
      rw [hid]
      exact ⟨dc, dc, hrun, hrun, rfl⟩
  case neg =>
    constructor
    · rintro ⟨s, s', hs, hs', hlog⟩
      exact agreesOn_of_agree hempty hpos hj hsized (twin_init cfg) hops
        hs hs' hlog
    · intro hagree
      obtain ⟨hlog, s, s', hs, hs', -⟩ := Logged.run_sim (Twin cfg)
        (fun op => op.WellSized cfg.numDof cfg.numBodies
          ∧ AgreesOn cfg op)
        (fun _ _ op ht ho =>
          twin_step hempty hpos hj hsized ht op ho.1 ho.2)
        (twin_init cfg) (fun op ho => ⟨hops op ho, hagree op ho⟩)
      exact ⟨s, s', hs, hs', hlog⟩

end Simulation

/-- `crossed` in the 1:1 mode. -/
def plain : BeyondMimicConfig ℚ := { crossed with robotJointNames := [] }

theorem oneToOne_agree_iff_plain :
    Agree plain crossedOps ↔ ∀ op ∈ crossedOps, AgreesOn plain op :=
  oneToOne_agree_iff rfl (by decide) ⟨rfl, rfl⟩ crossedOps_wellSized

/-- One observation, or one command of both joints, tells the modes
apart: the 1:1 mode reads past the reordered positions, and it publishes
`hip` where the identity mapping publishes `leg_l1`. -/
theorem plain_disagrees :
    ¬ Agree plain [.buildObservation ⟨0, 0, 0⟩ ⟨1, 0, 0, 0⟩
        ["leg_l1", "knee"] [1, 2] [0, 0]]
      ∧ ¬ Agree (D := ℚ) plain [.actionToJointCmd [1, 2]] := by
  constructor
  · rintro ⟨dc, -, hrun, -⟩
    have hfault : (run (init.configure plain)
        [.buildObservation ⟨0, 0, 0⟩ ⟨1, 0, 0, 0⟩
          ["leg_l1", "knee"] [1, 2] [0, 0]]).out
        = .error (.index .dofPosModel) := rfl
    rw [hfault] at hrun
    cases hrun
  · rintro ⟨-, -, -, -, hlog⟩
    exact absurd hlog (by decide)

end DataConverter

end RlDeploy
