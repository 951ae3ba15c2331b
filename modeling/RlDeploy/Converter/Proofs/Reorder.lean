/-
The order of the joints is only an order.

A configuration lists the model's joints in one order and the robot's in
another. Take both lists, with the per-joint vectors, in new orders
(`reordered`): the converter so configured is the old one with every
vector reordered. `Reordered` relates the two converters, and each member
function takes related converters to related ones:

- the observation has its joint blocks reordered and the rest unchanged
  (`Reordered.buildObservation`);
- an action in the new model order is remembered and scaled in the new
  model order (`Reordered.processAction`);
- the target and the command have their joints in the new robot order
  (`Reordered.command_eq`).

So a joint's values follow its name, never its place.
-/
import RlDeploy.Lib.Reorder
import RlDeploy.Converter.Proofs.ByName

namespace RlDeploy

open Lib

variable {F D : Type} [Scalar F D] {n k : Nat}

-- ===================================================== reordered data

omit [Scalar F D] in
/-- The configuration with the model's joints in the order `ρ` and the
robot's in the order `π`. -/
def BeyondMimicConfig.reordered (cfg : BeyondMimicConfig F)
    (ρ : Reordering n) (π : Reordering k) : BeyondMimicConfig F :=
  { cfg with
    jointNames := ρ.apply cfg.jointNames
    defaultDofPos := ρ.apply cfg.defaultDofPos
    kp := ρ.apply cfg.kp
    kd := ρ.apply cfg.kd
    actionScales := ρ.apply cfg.actionScales
    robotJointNames := π.apply cfg.robotJointNames }

omit [Scalar F D] in
/-- The motion with its joint vectors in the order `ρ`. -/
def MotionCommand.reordered (c : MotionCommand F) (ρ : Reordering n) :
    MotionCommand F :=
  { c with
    jointPos := ρ.apply c.jointPos
    jointVel := ρ.apply c.jointVel }

omit [Scalar F D] in
/-- The message with its joints in the order `π`. -/
def JointState.reordered (msg : JointState D) (π : Reordering k) :
    JointState D where
  name := π.apply msg.name
  position := π.apply msg.position
  velocity := π.apply msg.velocity
  effort := π.apply msg.effort

namespace DataConverter

/-- The observation with its joint blocks in the order `ρ`, for an anchor
block of `a` values. -/
def reorderObservation (ρ : Reordering n) (a : Nat) (obs : List F) :
    List F :=
  ρ.apply (block obs 0 n) ++ ρ.apply (block obs n n)
    ++ block obs (2 * n) a ++ block obs (2 * n + a) 3
    ++ ρ.apply (block obs (2 * n + a + 3) n)
    ++ ρ.apply (block obs (2 * n + a + 3 + n) n)
    ++ ρ.apply (block obs (2 * n + a + 3 + 2 * n) n)

omit [Scalar F D] in
theorem block_replicate {x : F} {total start len : Nat}
    (h : start + len ≤ total) :
    block (List.replicate total x) start len = List.replicate len x := by
  unfold block
  rw [List.drop_replicate, List.take_replicate,
    Nat.min_eq_left (by omega)]

omit [Scalar F D] in
/-- The observation of equal entries is the same in every order. -/
theorem reorderObservation_replicate (ρ : Reordering n) (a : Nat)
    (x : F) :
    reorderObservation ρ a (List.replicate (5 * n + 3 + a) x)
      = List.replicate (5 * n + 3 + a) x := by
  unfold reorderObservation
  rw [block_replicate (by omega), block_replicate (by omega),
    block_replicate (by omega), block_replicate (by omega),
    block_replicate (by omega), block_replicate (by omega),
    block_replicate (by omega), Reordering.apply_replicate]
  simp only [List.replicate_append_replicate]
  congr 1
  omega

-- ================================================== the configuration

section Config

variable {cfg : BeyondMimicConfig F} {ρ : Reordering cfg.numDof}
  {π : Reordering cfg.robotJointNames.length}

omit [Scalar F D] in
theorem jointNames_length : cfg.jointNames.length = cfg.numDof := rfl

omit [Scalar F D] in
theorem reordered_numDof : (cfg.reordered ρ π).numDof = cfg.numDof :=
  Reordering.apply_length rfl

omit [Scalar F D] in
theorem reordered_robot (h : cfg.robotJointNames ≠ []) :
    (cfg.reordered ρ π).robotJointNames ≠ [] := by
  intro hnil
  have hlen : (π.apply cfg.robotJointNames).length
      = cfg.robotJointNames.length := Reordering.apply_length rfl
  have hzero : (π.apply cfg.robotJointNames).length = 0 := by
    rw [show π.apply cfg.robotJointNames = [] from hnil]
    rfl
  exact h (List.eq_nil_of_length_eq_zero (by omega))

omit [Scalar F D] in
theorem reordered_sized (h : cfg.Sized) : (cfg.reordered ρ π).Sized := by
  constructor
  · rw [reordered_numDof]
    exact Reordering.apply_length h.defaultDofPos
  · rw [reordered_numDof]
    exact Reordering.apply_length h.actionScales

omit [Scalar F D] in
/-- The anchor is looked for among the bodies, which stay. -/
theorem reordered_setAnchorBodyIndex :
    (cfg.reordered ρ π).setAnchorBodyIndex
      = cfg.setAnchorBodyIndex.reordered ρ π := by
  unfold BeyondMimicConfig.setAnchorBodyIndex
  have hsame : (cfg.reordered ρ π).bodyNames.findIdx?
        (· == (cfg.reordered ρ π).anchorBodyName)
      = cfg.bodyNames.findIdx? (· == cfg.anchorBodyName) := rfl
  rw [hsame]
  cases cfg.bodyNames.findIdx? (· == cfg.anchorBodyName) <;> rfl

/-- The wire names do not depend on the order. -/
theorem reordered_wireName (h : cfg.robotJointNames ≠ [])
    (name : String) :
    (init.configure (cfg.reordered ρ π)).wireName name
      = (init.configure cfg).wireName name := by
  rw [configure_wireName _ (reordered_robot h), configure_wireName _ h]
  rfl

end Config

-- ====================================================== the relation

/-- A converter `dc` of `cfg`, and `dc'` of the configuration in new
orders, that hold the same values for every joint. -/
structure Reordered (cfg : BeyondMimicConfig F)
    (ρ : Reordering cfg.numDof)
    (π : Reordering cfg.robotJointNames.length)
    (dc dc' : DataConverter F) : Prop where
  sound : Sound (init.configure cfg) dc
  sound' : Sound (init.configure (cfg.reordered ρ π)) dc'
  command : dc'.command = dc.command.reordered ρ
  last : dc'.lastAction = ρ.apply dc.lastAction
  align : dc'.initAlign = dc.initAlign

section Relation

variable {cfg : BeyondMimicConfig F} {ρ : Reordering cfg.numDof}
  {π : Reordering cfg.robotJointNames.length} {dc dc' : DataConverter F}

/-- Two converters fresh from `configure`. -/
theorem reordered_configure :
    Reordered cfg ρ π (init.configure cfg)
      (init.configure (cfg.reordered ρ π)) := by
  refine ⟨configure_sound cfg, configure_sound _, ?_, ?_, ?_⟩
  · rw [configure_command, configure_command]
    show ({} : MotionCommand F) = MotionCommand.reordered {} ρ
    unfold MotionCommand.reordered
    rw [Reordering.apply_nil]
  · rw [configure_lastAction, configure_lastAction, reordered_numDof,
      Reordering.apply_replicate]
  · rw [configure_initAlign, configure_initAlign]

theorem Reordered.cfg_eq (h : Reordered cfg ρ π dc dc') :
    dc'.cfg = dc.cfg.reordered ρ π := by
  rw [h.sound'.setup.cfg, h.sound.setup.cfg, configure_cfg, configure_cfg,
    reordered_setAnchorBodyIndex]

theorem Reordered.numDof_left (h : Reordered cfg ρ π dc dc') :
    dc.numDof = cfg.numDof :=
  h.sound.setup.joints

theorem Reordered.numDof_right (h : Reordered cfg ρ π dc dc') :
    dc'.numDof = cfg.numDof := by
  rw [h.sound'.setup.joints, reordered_numDof]

theorem Reordered.wireName (hrobot : cfg.robotJointNames ≠ [])
    (h : Reordered cfg ρ π dc dc') (name : String) :
    dc'.wireName name = dc.wireName name := by
  rw [h.sound'.setup.wireName, h.sound.setup.wireName,
    reordered_wireName hrobot]

/-- The anchor block's length is the configuration's. -/
theorem Reordered.anchorLen (h : Reordered cfg ρ π dc dc') :
    dc.anchorLen = (init.configure cfg).anchorLen := by
  unfold DataConverter.anchorLen
  rw [h.sound.setup.cfg]

theorem Reordered.lastLength (h : Reordered cfg ρ π dc dc') :
    dc.lastAction.length = cfg.numDof := by
  rw [h.sound.last, configure_numDof]

/-- The motion command's joint vectors are empty or of full size. -/
theorem Reordered.jointPosLength (h : Reordered cfg ρ π dc dc') :
    dc.command.jointPos = [] ∨ dc.command.jointPos.length = cfg.numDof := by
  rcases h.sound.command with he | ⟨hlen, -⟩
  · rw [he]
    exact Or.inl rfl
  · rw [configure_numDof] at hlen
    exact Or.inr hlen

theorem Reordered.empty (h : Reordered cfg ρ π dc dc') :
    dc'.command.empty = dc.command.empty := by
  rw [h.command]
  exact Reordering.apply_isEmpty h.jointPosLength

-- ==================================================== buildObservation

section Observation

variable [Eigen F] {names : List String} {pos vel : List D}

omit [Eigen F] in
theorem Reordered.refPos (h : Reordered cfg ρ π dc dc') :
    dc'.refPos = ρ.apply dc.refPos := by
  rw [refPos_eq h.sound', refPos_eq h.sound, h.empty, h.numDof_left,
    h.numDof_right, h.command]
  cases dc.command.empty with
  | true => exact (Reordering.apply_replicate 0).symm
  | false => rfl

omit [Eigen F] in
theorem Reordered.refVel (h : Reordered cfg ρ π dc dc') :
    dc'.refVel = ρ.apply dc.refVel := by
  rw [refVel_eq h.sound', refVel_eq h.sound, h.empty, h.numDof_left,
    h.numDof_right, h.command]
  cases dc.command.empty with
  | true => exact (Reordering.apply_replicate 0).symm
  | false => rfl

/-- Block 2 is about bodies only. -/
theorem Reordered.anchorBlock (h : Reordered cfg ρ π dc dc')
    (q : Quat F) : dc'.anchorBlock q = dc.anchorBlock q := by
  unfold DataConverter.anchorBlock
  rw [h.empty, h.cfg_eq, h.align, h.command]
  rfl

omit [Eigen F] in
theorem Reordered.observedEntry (hrobot : cfg.robotJointNames ≠ [])
    (h : Reordered cfg ρ π dc dc') (data : List D) (joint : String) :
    dc'.observedEntry names data joint
      = dc.observedEntry names data joint := by
  have hmem : joint ∈ dc'.cfg.robotJointNames
      ↔ joint ∈ dc.cfg.robotJointNames := by
    rw [h.sound'.robotJointNames, h.sound.robotJointNames]
    exact Reordering.mem_apply rfl
  have hentry : dc'.messageEntry names data joint
      = dc.messageEntry names data joint := by
    unfold messageEntry
    rw [h.wireName hrobot]
  unfold DataConverter.observedEntry
  rw [hentry]
  by_cases hin : joint ∈ dc.cfg.robotJointNames
  · rw [if_pos hin, if_pos (hmem.mpr hin)]
  · rw [if_neg hin, if_neg fun hin' => hin (hmem.mp hin')]

omit [Eigen F] in
/-- The joint at a place of the new order. -/
theorem place_joint {i j : Nat} (hp : ρ.places[j]? = some i) :
    ∃ joint, cfg.jointNames[i]? = some joint
      ∧ (cfg.reordered ρ π).jointNames[j]? = some joint := by
  have hi : i < cfg.numDof := ρ.lt_of_mem (List.mem_of_getElem? hp)
  obtain ⟨joint, hget⟩ : ∃ joint, cfg.jointNames[i]? = some joint :=
    ⟨_, List.getElem?_eq_getElem hi⟩
  refine ⟨joint, hget, ?_⟩
  show (ρ.apply cfg.jointNames)[j]? = _
  rw [Reordering.apply_getElem? jointNames_length, hp]
  exact hget

omit [Eigen F] in
/-- Block 6 in the new order: a joint's value follows its name. -/
theorem Reordered.velBlock (hrobot : cfg.robotJointNames ≠ [])
    (hj : cfg.jointNames.Nodup) (hr : cfg.robotJointNames.Nodup)
    (h : Reordered cfg ρ π dc dc') (hd : dc.Observable)
    (hd' : dc'.Observable) (names : List String) (vel : List D) :
    dc'.velBlock names vel = ρ.apply (dc.velBlock names vel) := by
  have hlen := velBlock_length hd.tarLen names vel
  have hlen' := velBlock_length hd'.tarLen names vel
  rw [h.numDof_left] at hlen
  rw [h.numDof_right] at hlen'
  apply Reordering.eq_apply hlen' hlen
  intro i j hp
  obtain ⟨joint, hi, hj'⟩ := place_joint (π := π) hp
  rw [velBlock_observedEntry (reordered_robot hrobot)
      (Reordering.apply_nodup rfl hj) (Reordering.apply_nodup rfl hr)
      h.sound' hj',
    velBlock_observedEntry hrobot hj hr h.sound hi,
    h.observedEntry hrobot]

omit [Eigen F] in
/-- Block 5 in the new order. -/
theorem Reordered.posBlock (hrobot : cfg.robotJointNames ≠ [])
    (hsized : cfg.Sized) (hj : cfg.jointNames.Nodup)
    (hr : cfg.robotJointNames.Nodup) (h : Reordered cfg ρ π dc dc')
    (hd : dc.Observable) (hd' : dc'.Observable) (names : List String)
    (pos : List D) :
    dc'.posBlock names pos = ρ.apply (dc.posBlock names pos) := by
  have hlen := posBlock_length hd.tarLen hd.default names pos
  have hlen' := posBlock_length hd'.tarLen hd'.default names pos
  rw [h.numDof_left] at hlen
  rw [h.numDof_right] at hlen'
  apply Reordering.eq_apply hlen' hlen
  intro i j hp
  obtain ⟨joint, hi, hj'⟩ := place_joint (π := π) hp
  have hlt : i < cfg.defaultDofPos.length := by
    rw [hsized.defaultDofPos]
    exact ρ.lt_of_mem (List.mem_of_getElem? hp)
  have hdef : cfg.defaultDofPos[i]? = some cfg.defaultDofPos[i] :=
    List.getElem?_eq_getElem hlt
  have hdef' : (cfg.reordered ρ π).defaultDofPos[j]?
      = some cfg.defaultDofPos[i] := by
    show (ρ.apply cfg.defaultDofPos)[j]? = _
    rw [Reordering.apply_getElem? hsized.defaultDofPos, hp]
    exact hdef
  rw [posBlock_observedEntry (reordered_robot hrobot)
      (Reordering.apply_nodup rfl hj) (Reordering.apply_nodup rfl hr)
      h.sound' hj' hdef',
    posBlock_observedEntry hrobot hj hr h.sound hi hdef,
    h.observedEntry hrobot]

omit [Eigen F] in
theorem Reordered.lastBlock (h : Reordered cfg ρ π dc dc') :
    dc'.lastBlock = ρ.apply dc.lastBlock := by
  rw [lastBlock_eq h.sound', lastBlock_eq h.sound, h.last]

/-- The observation of the reordered converter is the reordered
observation. -/
theorem Reordered.buildObservation (hrobot : cfg.robotJointNames ≠ [])
    (hsized : cfg.Sized) (hj : cfg.jointNames.Nodup)
    (hr : cfg.robotJointNames.Nodup) (h : Reordered cfg ρ π dc dc')
    (w : Vec3 F) (q : Quat F) (names : List String) (pos vel : List D) :
    ∃ obs, dc.buildObservation w q names pos vel = .ok obs
      ∧ obs.length = 5 * cfg.numDof + 3 + (init.configure cfg).anchorLen
      ∧ dc'.buildObservation w q names pos vel
        = .ok (reorderObservation ρ (init.configure cfg).anchorLen
          obs) := by
  rw [← h.anchorLen]
  have hready := configure_ready init (hsized.runnable (Or.inr hrobot))
  have hready' := configure_ready init
    ((reordered_sized (ρ := ρ) (π := π) hsized).runnable
      (Or.inr (reordered_robot hrobot)))
  have hd := h.sound.observable hready
  have hd' := h.sound'.observable hready'
  obtain ⟨anchor, hanchor, hobs⟩ := buildObservation_eq hd w q names pos vel
  obtain ⟨anchor', hanchor', hobs'⟩ :=
    buildObservation_eq hd' w q names pos vel
  have hsame : anchor' = anchor := by
    rw [h.anchorBlock, hanchor] at hanchor'
    cases hanchor'
    rfl
  obtain ⟨obs, hobs₁, hl⟩ :=
    buildObservation_layout hready h.sound w q names pos vel
  have hlen := buildObservation_length hobs₁
  have hblock := block_anchor hobs₁ hanchor
  have hn := h.numDof_left
  have hangVel := hl.angVel
  have hrelPos := hl.relPos
  have hjointVel := hl.jointVel
  have hlast := hl.lastAction
  have hrefPos := hl.refPos
  have hrefVel := hl.refVel
  rw [← refPos_eq h.sound] at hrefPos
  rw [← refVel_eq h.sound] at hrefVel
  rw [← lastBlock_eq h.sound] at hlast
  unfold anchorEnd at hangVel hrelPos hjointVel hlast
  rw [hn] at hlen hblock hangVel hrelPos hjointVel hlast hrefPos hrefVel
  refine ⟨obs, hobs₁, hlen, ?_⟩
  rw [hobs', hsame, h.refPos, h.refVel,
    h.posBlock hrobot hsized hj hr hd hd',
    h.velBlock hrobot hj hr hd hd', h.lastBlock]
  unfold reorderObservation
  rw [hrefPos, hrefVel, hblock, hangVel, hrelPos, hjointVel, hlast]

end Observation

-- ======================================================== processAction

/-- An action in the new model order is remembered and returned in the
new model order. -/
theorem Reordered.processAction (hsized : cfg.Sized)
    (h : Reordered cfg ρ π dc dc') {raw : List F}
    (hraw : raw.length = cfg.numDof) :
    ∃ dc₁ dc₁' scaled, dc.processAction raw = .ok (dc₁, scaled)
      ∧ dc'.processAction (ρ.apply raw) = .ok (dc₁', ρ.apply scaled)
      ∧ scaled.length = cfg.numDof
      ∧ Reordered cfg ρ π dc₁ dc₁' := by
  have hscales : (init.configure cfg).numDof
      ≤ (init.configure cfg).cfg.actionScales.length := by
    obtain ⟨i, hi⟩ := (SameSetup.refl (init.configure cfg)).config
    rw [configure_numDof, hi]
    exact hsized.actionScales.ge
  have hscales' : (init.configure (cfg.reordered ρ π)).numDof
      ≤ (init.configure (cfg.reordered ρ π)).cfg.actionScales.length := by
    obtain ⟨i, hi⟩ :=
      (SameSetup.refl (init.configure (cfg.reordered ρ π))).config
    rw [configure_numDof, hi]
    exact (reordered_sized hsized).actionScales.ge
  have hscale : dc.cfg.actionScales.length = cfg.numDof := by
    obtain ⟨i, hi⟩ := h.sound.setup.config
    rw [hi]
    exact hsized.actionScales
  have hfits : raw.length = (init.configure cfg).numDof := by
    rw [configure_numDof, hraw]
  have hfits' : (ρ.apply raw).length
      = (init.configure (cfg.reordered ρ π)).numDof := by
    rw [configure_numDof, reordered_numDof, Reordering.apply_length hraw]
  obtain ⟨hp, hs, hlen⟩ := h.sound.processAction hscales hfits
  obtain ⟨hp', hs', -⟩ := h.sound'.processAction hscales' hfits'
  rw [configure_numDof] at hlen
  have hlast := h.lastLength
  -- both loops commute with the order
  have hsmooth : dc'.smoothed (ρ.apply raw) = ρ.apply (dc.smoothed raw) := by
    unfold smoothed
    rw [h.numDof_left, h.numDof_right, h.last, h.cfg_eq,
      List.take_of_length_le (Reordering.apply_length hlast).le,
      List.take_of_length_le (Reordering.apply_length hraw).le,
      List.take_of_length_le hlast.le, List.take_of_length_le hraw.le,
      Reordering.apply_zipWith _ hlast hraw]
    rfl
  have hsmoothLen : (dc.smoothed raw).length = cfg.numDof := by
    have := hs.last
    rwa [configure_numDof] at this
  have hscaled : dc'.scaled (ρ.apply raw) = ρ.apply (dc.scaled raw) := by
    unfold scaled
    rw [hsmooth, h.numDof_left, h.numDof_right, h.cfg_eq]
    show List.zipWith _ _ ((ρ.apply dc.cfg.actionScales).take _) = _
    rw [List.take_of_length_le (Reordering.apply_length hscale).le,
      List.take_of_length_le hscale.le,
      Reordering.apply_zipWith _ hsmoothLen hscale]
    rfl
  refine ⟨_, _, _, hp, by rw [hp', hscaled], hlen, hs, hs',
    h.command, hsmooth, h.align⟩

-- ============================================ the target, the command

/-- The targets in the new model order. -/
theorem Reordered.targets (hsized : cfg.Sized)
    (h : Reordered cfg ρ π dc dc') {action : List F}
    (hact : action.length = cfg.numDof) :
    dc'.targets (ρ.apply action) = ρ.apply (dc.targets action) := by
  have hdef : dc.cfg.defaultDofPos.length = cfg.numDof := by
    obtain ⟨i, hi⟩ := h.sound.setup.config
    rw [hi]
    exact hsized.defaultDofPos
  unfold DataConverter.targets
  rw [h.numDof_left, h.numDof_right, h.empty, h.cfg_eq]
  show (if dc.cfg.useResidualAction && !dc.command.empty then _ else _)
    = _
  by_cases hres : (dc.cfg.useResidualAction && !dc.command.empty) = true
  · have hpos : dc.command.jointPos.length = cfg.numDof := by
      rcases h.jointPosLength with hnil | hlen
      · simp [MotionCommand.empty, hnil] at hres
      · exact hlen
    rw [if_pos hres, if_pos hres, h.command]
    show List.zipWith _ _ ((ρ.apply dc.command.jointPos).take _) = _
    rw [List.take_of_length_le (Reordering.apply_length hact).le,
      List.take_of_length_le (Reordering.apply_length hpos).le,
      List.take_of_length_le hact.le, List.take_of_length_le hpos.le,
      Reordering.apply_zipWith _ hact hpos]
  · rw [if_neg hres, if_neg hres]
    show List.zipWith _ ((ρ.apply dc.cfg.defaultDofPos).take _) _ = _
    rw [List.take_of_length_le (Reordering.apply_length hact).le,
      List.take_of_length_le (Reordering.apply_length hdef).le,
      List.take_of_length_le hact.le, List.take_of_length_le hdef.le,
      Reordering.apply_zipWith _ hdef hact]

/-- The published vector, joint by joint: the target under the robot
joint's name, and the filler for a joint the model does not have. -/
theorem published_getElem? (hj : cfg.jointNames.Nodup)
    (hr : cfg.robotJointNames.Nodup) {action : List F} {c : Nat}
    {name : String} (hc : cfg.robotJointNames[c]? = some name) :
    (published cfg dc action)[c]?
      = some ((valueAt cfg.jointNames (dc.targets action) name).getD 0) :=
  DoFAdapter.fitted_named hj hr hc

theorem targets_length_eq (hrobot : cfg.robotJointNames ≠ [])
    (hsized : cfg.Sized) (hs : Sound (init.configure cfg) dc)
    {action : List F} (hact : action.length = cfg.numDof) :
    (dc.targets action).length = cfg.numDof := by
  have hready := hs.setup.ready
    (configure_ready init (hsized.runnable (Or.inr hrobot)))
  have hn : dc.numDof = cfg.numDof := hs.setup.joints
  rw [targets_length hready.default hs.commandReadable (by omega), hn]

/-- The published vector in the new robot order. -/
theorem Reordered.published (hrobot : cfg.robotJointNames ≠ [])
    (hsized : cfg.Sized) (hj : cfg.jointNames.Nodup)
    (hr : cfg.robotJointNames.Nodup) (h : Reordered cfg ρ π dc dc')
    {action : List F} (hact : action.length = cfg.numDof) :
    published (cfg.reordered ρ π) dc' (ρ.apply action)
      = π.apply (published cfg dc action) := by
  have hj' : (cfg.reordered ρ π).jointNames.Nodup :=
    Reordering.apply_nodup rfl hj
  have hr' : (cfg.reordered ρ π).robotJointNames.Nodup :=
    Reordering.apply_nodup rfl hr
  have htargets := targets_length_eq hrobot hsized h.sound hact
  apply Reordering.eq_apply
  · rw [published_length]
    exact Reordering.apply_length rfl
  · exact published_length
  intro i j hp
  have hi : i < cfg.robotJointNames.length :=
    π.lt_of_mem (List.mem_of_getElem? hp)
  have hname : cfg.robotJointNames[i]? = some cfg.robotJointNames[i] :=
    List.getElem?_eq_getElem hi
  have hname' : (cfg.reordered ρ π).robotJointNames[j]?
      = some cfg.robotJointNames[i] := by
    show (π.apply cfg.robotJointNames)[j]? = _
    rw [Reordering.apply_getElem? rfl, hp]
    exact hname
  rw [published_getElem? hj' hr' hname', published_getElem? hj hr hname,
    h.targets hsized hact]
  show some ((valueAt (ρ.apply cfg.jointNames) _ _).getD 0) = _
  rw [Reordering.valueAt_apply jointNames_length htargets hj]

/-- The command message in the new robot order. -/
theorem Reordered.command_eq (hrobot : cfg.robotJointNames ≠ [])
    (hsized : cfg.Sized) (hj : cfg.jointNames.Nodup)
    (hr : cfg.robotJointNames.Nodup) (h : Reordered cfg ρ π dc dc')
    {action : List F} (hact : action.length = cfg.numDof) :
    ∃ target target', dc.computePdTarget action = .ok target
      ∧ dc'.computePdTarget (ρ.apply action) = .ok target'
      ∧ dc'.actionToJointCmd target'
        = (dc.actionToJointCmd target).reordered π := by
  have hrobot' := reordered_robot (ρ := ρ) (π := π) hrobot
  refine ⟨_, _, computePdTarget_robot hrobot hsized h.sound hact,
    computePdTarget_robot hrobot' (reordered_sized hsized) h.sound'
      (by rw [reordered_numDof, Reordering.apply_length hact]), ?_⟩
  rw [h.published hrobot hsized hj hr hact]
  have hlen : (DataConverter.published cfg dc action).length
      = cfg.robotJointNames.length := published_length
  have hctrl := h.sound.controlledNames hrobot
  have hctrl' : dc'.cfg.controlledNames = π.apply cfg.robotJointNames :=
    h.sound'.controlledNames hrobot'
  have hzip : ((π.apply (DataConverter.published cfg dc action)).zip
        (π.apply cfg.robotJointNames))
      = π.apply ((DataConverter.published cfg dc action).zip
        cfg.robotJointNames) :=
    (Reordering.apply_zipWith _ hlen rfl).symm
  have hwire : dc'.wireName = dc.wireName := funext (h.wireName hrobot)
  unfold actionToJointCmd JointState.reordered
  rw [hctrl, hctrl', hzip, hwire]
  simp only [Reordering.apply_map]

end Relation

end DataConverter

end RlDeploy
