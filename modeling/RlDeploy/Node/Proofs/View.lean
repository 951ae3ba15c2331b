/-
How much of the model's world the node sees.

The model answers with the poses of all bodies in a world frame of its
own. The node takes one pose out of an answer, that of the anchor body,
and puts it into an observation only after it has been aligned to the
dry run and compared with the robot (`poseBlock`). So two models whose
worlds differ in what this loses cannot be told apart by what the node
does.

# Views

A `View` says how the poses and the alignments of two worlds may differ,
and the orientations that the two robots report, and carries the two
facts this needs: an alignment to related poses is related, and related
poses under related alignments give one anchor block. From any view the
two runs have one log (`View.run_log`), callback by callback, whatever
the configuration and the events, and also where an answer fails or a
vector is too short.

# Two views of one robot

- Any other body, its pose and whether it is there in full, is never
  read; and without a state estimator the position of the anchor is not
  either (`only_anchor_seen`). This needs no arithmetic.
- A world moved over the ground is the same world, since the alignment
  moves along (`ground_shift`). This needs exact arithmetic, and answers
  with a motion, since an alignment that never happened cannot move.
-/
import RlDeploy.Node.Proofs.Image
import RlDeploy.Node.Proofs.Steady

namespace RlDeploy

open Lib

variable {F D : Type} [Scalar F D] [Eigen F]

-- ============================================================== views

/-- How the frames of two worlds may differ without a trace. -/
structure View (cfg : BeyondMimicConfig F) where
  /-- Anchor positions that may stand for each other. -/
  pos : Vec3 F → Vec3 F → Prop
  /-- Anchor orientations that may. -/
  quat : Quat F → Quat F → Prop
  /-- Orientations of the robot that may. -/
  robot : Quat F → Quat F → Prop
  /-- Alignments that may. -/
  align : TransformAlignment F → TransformAlignment F → Prop
  robot_refl : ∀ i, robot i i
  base : ∀ p p' q q', pos p p' → quat q q' →
    align (TransformAlignment.setBase q p true true)
      (TransformAlignment.setBase q' p' true true)
  unseen : ∀ a a' i i' p p' q q', align a a' → robot i i' → pos p p' →
    quat q q' →
    DataConverter.poseBlock cfg.setAnchorBodyIndex a' i' p' q'
      = DataConverter.poseBlock cfg.setAnchorBodyIndex a i p q

namespace View

variable {cfg : BeyondMimicConfig F} (V : View cfg)

/-- Two motions with one anchor pose, as far as `V` sees. -/
structure Pose (c c' : MotionCommand F) : Prop where
  bodyPosW : c'.bodyPosW.isEmpty = c.bodyPosW.isEmpty
  pos : (∃ e, c.bodyPos cfg.setAnchorBodyIndex.anchorBodyIndex = .error e
      ∧ c'.bodyPos cfg.setAnchorBodyIndex.anchorBodyIndex = .error e)
    ∨ ∃ p p', c.bodyPos cfg.setAnchorBodyIndex.anchorBodyIndex = .ok p
      ∧ c'.bodyPos cfg.setAnchorBodyIndex.anchorBodyIndex = .ok p'
      ∧ V.pos p p'
  quat : (∃ e, c.bodyQuat cfg.setAnchorBodyIndex.anchorBodyIndex = .error e
      ∧ c'.bodyQuat cfg.setAnchorBodyIndex.anchorBodyIndex = .error e)
    ∨ ∃ q q', c.bodyQuat cfg.setAnchorBodyIndex.anchorBodyIndex = .ok q
      ∧ c'.bodyQuat cfg.setAnchorBodyIndex.anchorBodyIndex = .ok q'
      ∧ V.quat q q'

/-- Two motions that `V` does not tell apart. -/
structure Same (c c' : MotionCommand F) : Prop where
  jointPos : c'.jointPos = c.jointPos
  jointVel : c'.jointVel = c.jointVel
  pose : cfg.numBodies = 0 ∨ V.Pose c c'

/-- Two models that `V` does not tell apart: they fail together, and
their answers differ in the motions alone, as far as `V` allows. -/
structure Models (net net' : Policy F) : Prop where
  obsSize : net'.obsSize = net.obsSize
  answers : ∀ obs t,
    (∃ e, net.infer obs t = .error e ∧ net'.infer obs t = .error e)
    ∨ ∃ r r', net.infer obs t = .ok r ∧ net'.infer obs t = .ok r'
      ∧ r'.actions = r.actions ∧ V.Same r.motion r'.motion

/-- The alignments of two runs are related from the first motion on: the
alignment of the start is related to itself, or the dry run answers with
the pose that replaces it. -/
def Based (net : Policy F) (s : Int) : Prop :=
  V.align TransformAlignment.init TransformAlignment.init
    ∨ ∀ r, net.infer (List.replicate net.obsSize 0) s = .ok r →
      r.motion.empty = false ∧ r.bodyPosW.isEmpty = false

/-- Two converters that `V` does not tell apart. -/
structure Converters (dc dc' : DataConverter F) : Prop where
  same : dc' = { dc with
    command := dc'.command, initAlign := dc'.initAlign }
  config : dc.cfg = cfg.setAnchorBodyIndex
  command : V.Same dc.command dc'.command
  align : cfg.numBodies = 0 ∨ V.align dc.initAlign dc'.initAlign

variable {V} {dc dc' : DataConverter F}

omit [Eigen F] in
theorem setAnchor_numBodies (cfg : BeyondMimicConfig F) :
    cfg.setAnchorBodyIndex.numBodies = cfg.numBodies := by
  unfold BeyondMimicConfig.setAnchorBodyIndex
  split <;> rfl

theorem Same.empty {c c' : MotionCommand F} (h : V.Same c c') :
    c'.empty = c.empty := by
  unfold MotionCommand.empty
  rw [h.jointPos]

-- ================================================== one call of each

/-- The anchor blocks are equal, or fail in the same way. -/
theorem Converters.anchorBlock (h : V.Converters dc dc') {i i' : Quat F}
    (hrobot : V.robot i i') : dc'.anchorBlock i' = dc.anchorBlock i := by
  have hcfg : dc'.cfg = dc.cfg := by rw [h.same]
  have hbodies : dc.cfg.numBodies = cfg.numBodies := by
    rw [h.config, setAnchor_numBodies]
  have hempty := h.command.empty
  cases he : dc.command.empty with
  | true =>
      rw [DataConverter.anchorBlock_noPose (Or.inl he),
        DataConverter.anchorBlock_noPose (Or.inl (hempty.trans he)),
        hcfg]
  | false =>
      by_cases hb : 0 < dc.cfg.numBodies
      case neg =>
        have hb0 : dc.cfg.numBodies = 0 := by omega
        rw [DataConverter.anchorBlock_noPose (Or.inr hb0),
          DataConverter.anchorBlock_noPose (Or.inr (by rw [hcfg, hb0])),
          hcfg]
      by_cases hidx : 0 ≤ dc.cfg.anchorBodyIndex
      case neg =>
        unfold DataConverter.anchorBlock
        simp only [hcfg, hidx, decide_false, Bool.and_false,
          Bool.false_eq_true, if_false]
      rw [hbodies] at hb
      have hne : cfg.numBodies ≠ 0 := by omega
      have hpose := h.command.pose.resolve_left hne
      have halign := h.align.resolve_left hne
      have hquat := hpose.quat
      have hpos := hpose.pos
      rw [← h.config] at hpos hquat
      rcases hpos with ⟨e, hp, hp'⟩ | ⟨p, p', hp, hp', hpp⟩
      · -- neither position can be read
        unfold DataConverter.anchorBlock
        rw [hempty, hcfg, hp, hp']
        rfl
      rcases hquat with ⟨e, hq, hq'⟩ | ⟨q, q', hq, hq', hqq⟩
      · unfold DataConverter.anchorBlock
        rw [hempty, hcfg, hp, hp', hq, hq']
        rfl
      rw [DataConverter.anchorBlock_pose he (by rw [hbodies]; omega) hidx
          hp hq,
        DataConverter.anchorBlock_pose (hempty.trans he)
          (by rw [hcfg, hbodies]; omega) (by rw [hcfg]; exact hidx)
          (by rw [hcfg]; exact hp') (by rw [hcfg]; exact hq'),
        hcfg, h.config, V.unseen _ _ _ _ _ _ _ _ halign hrobot hpp hqq]

omit [Eigen F] in
/-- The joint blocks of an observation do not involve the bodies. -/
theorem commandBlock_congr {c c' : MotionCommand F}
    (hpos : c'.jointPos = c.jointPos) (hvel : c'.jointVel = c.jointVel)
    (hc : dc.command = c) (a : TransformAlignment F) :
    ({ dc with command := c', initAlign := a } :
      DataConverter F).commandBlock = dc.commandBlock := by
  unfold DataConverter.commandBlock MotionCommand.empty
  simp only [hpos, hvel, hc]
  rfl

theorem Converters.buildObservation (h : V.Converters dc dc')
    (w : Vec3 F) {i i' : Quat F} (hrobot : V.robot i i')
    (names : List String) (pos vel : List D) :
    dc'.buildObservation w i' names pos vel
      = dc.buildObservation w i names pos vel := by
  have hanchor := h.anchorBlock hrobot
  have hcommand : dc'.commandBlock = dc.commandBlock := by
    rw [h.same]
    exact commandBlock_congr h.command.jointPos h.command.jointVel rfl _
  unfold DataConverter.buildObservation
  rw [hanchor, hcommand, h.same]
  rfl

theorem Converters.targetModel (h : V.Converters dc dc')
    (action : List F) : dc'.targetModel action = dc.targetModel action := by
  have hempty := h.command.empty
  have hpos := h.command.jointPos
  unfold DataConverter.targetModel
  rw [hempty, hpos, h.same]
  rfl

theorem Converters.computePdTarget (h : V.Converters dc dc')
    (action : List F) :
    dc'.computePdTarget action = dc.computePdTarget action := by
  unfold DataConverter.computePdTarget
  rw [h.targetModel, h.same]

theorem Converters.actionToJointCmd (h : V.Converters dc dc')
    (target : List F) :
    (dc'.actionToJointCmd target : JointState D)
      = dc.actionToJointCmd target := by
  rw [h.same]
  rfl

/-- Raw actions are processed alike. -/
theorem Converters.processAction (h : V.Converters dc dc')
    (raw : List F) :
    (∃ e, dc.processAction raw = .error e
        ∧ dc'.processAction raw = .error e)
      ∨ ∃ p p', dc.processAction raw = .ok p
        ∧ dc'.processAction raw = .ok p'
        ∧ V.Converters p.1 p'.1 ∧ p'.2 = p.2 := by
  have hsmooth : dc'.smooth raw = dc.smooth raw := by
    rw [h.same]
    rfl
  have hsame := h.same
  unfold DataConverter.processAction
  rw [hsmooth]
  cases hs : dc.smooth raw with
  | error e => exact Or.inl ⟨e, rfl, rfl⟩
  | ok smoothed =>
      simp only [ok_bind]
      have hscale : dc'.numDof = dc.numDof ∧ dc'.cfg = dc.cfg := by
        rw [h.same]
        exact ⟨rfl, rfl⟩
      rw [hscale.1, hscale.2]
      cases hk : tabulate dc.numDof (read₂ (Fault.index .smoothed)
          (Fault.index .actionScales)
          (fun a k => clamp a (-dc.cfg.clipActions) dc.cfg.clipActions * k)
          smoothed dc.cfg.actionScales) with
      | error e => exact Or.inl ⟨e, rfl, rfl⟩
      | ok scaled =>
          refine Or.inr ⟨_, _, rfl, rfl, ⟨?_, h.config, h.command, h.align⟩,
            rfl⟩
          rw [hsame]

-- =========================================================== the node

open RLControllerNode

theorem updateMotion_same {r r' : InferenceResult F}
    (h : V.Converters dc dc') (hr : V.Same r.motion r'.motion) :
    V.Converters (updateMotion dc r) (updateMotion dc' r') := by
  have hempty := hr.empty
  rw [updateMotion_eq, updateMotion_eq, hempty]
  cases r.motion.empty with
  | true =>
      refine ⟨?_, h.config, h.command, h.align⟩
      have hsame := h.same
      rw [hsame]
      rfl
  | false =>
      refine ⟨?_, h.config, hr, h.align⟩
      have hsame := h.same
      rw [hsame]
      rfl

/-- Two IMU messages with orientations that `V` does not tell apart. -/
structure SameImu (V : View cfg) (i i' : Imu D) : Prop where
  velocity : i'.angularVelocity = i.angularVelocity
  orientation : V.robot i.orientation.narrow i'.orientation.narrow

/-- Two events that `V` does not tell apart. -/
inductive Events (V : View cfg) : Event D → Event D → Prop
  | jointState (msg : JointState D) : Events V (.jointState msg)
      (.jointState msg)
  | imu {msg msg' : Imu D} (h : V.SameImu msg msg') :
      Events V (.imu msg) (.imu msg')
  | timer : Events V .timer .timer

/-- Two nodes of two runs: the same but for the latest orientation before
the dry run, and from then on but for the converters too, which `V` does
not tell apart. -/
inductive Nodes (V : View cfg) (s : Int)
    (n n' : RLControllerNode F D) : Prop
  | before (hi : n.initialized = false)
      (heq : n' = { n with latestImu := n'.latestImu })
      (himu : V.SameImu n.latestImu n'.latestImu)
      (ht : n.timestep = s)
      (hcfg : n.converter.cfg = cfg.setAnchorBodyIndex)
      (hcmd : n.converter.command = {})
      (halign : n.converter.initAlign = TransformAlignment.init)
  | after (hi : n.initialized = true)
      (heq : n' = { n with
        converter := n'.converter, latestImu := n'.latestImu })
      (himu : V.SameImu n.latestImu n'.latestImu)
      (h : V.Converters n.converter n'.converter)

theorem Nodes.sameFlags {s : Int} {n n' : RLControllerNode F D}
    (h : Nodes V s n n') : SameFlags n n' := by
  cases h with
  | before _ heq => rw [heq]; exact ⟨rfl, rfl, rfl, rfl⟩
  | after _ heq => rw [heq]; exact ⟨rfl, rfl, rfl, rfl⟩

omit [Eigen F] [Scalar F D] in
/-- There is no body in the motion of the start. -/
theorem bodyPos_none (i : Int) :
    ({} : MotionCommand F).bodyPos i = .error (.index .bodyPosW) := by
  have hread : readInt (Fault.index .bodyPosW) ([] : List F) (i * 3)
      = .error (.index .bodyPosW) := by
    unfold readInt
    split <;> rfl
  unfold MotionCommand.bodyPos
  rw [hread]
  rfl

omit [Eigen F] [Scalar F D] in
theorem bodyQuat_none (i : Int) :
    ({} : MotionCommand F).bodyQuat i = .error (.index .bodyQuatW) := by
  have hread : readInt (Fault.index .bodyQuatW) ([] : List F) (i * 4)
      = .error (.index .bodyQuatW) := by
    unfold readInt
    split <;> rfl
  unfold MotionCommand.bodyQuat
  rw [hread]
  rfl

/-- The dry run on answers without a motion: nothing changes. -/
theorem initMotion_same_still {r r' : InferenceResult F}
    (hcfg : dc.cfg = cfg.setAnchorBodyIndex) (hcmd : dc.command = {})
    (he : r.jointPos.isEmpty = true) (he' : r'.jointPos.isEmpty = true)
    (hinit : V.align dc.initAlign dc.initAlign) :
    ∃ dc₁ dc₁', initMotion dc r = .ok dc₁ ∧ initMotion dc r' = .ok dc₁'
      ∧ V.Converters dc₁ dc₁' := by
  have hstill : ∀ q : InferenceResult F, q.jointPos.isEmpty = true →
      initMotion dc q = .ok dc := by
    intro q hq
    unfold initMotion
    rw [hq]
    rfl
  refine ⟨dc, dc, hstill r he, hstill r' he', rfl, hcfg, ?_, Or.inr hinit⟩
  rw [hcmd]
  exact ⟨rfl, rfl, Or.inr
    ⟨rfl, Or.inl ⟨_, bodyPos_none _, bodyPos_none _⟩,
      Or.inl ⟨_, bodyQuat_none _, bodyQuat_none _⟩⟩⟩

/-- The dry run on answers with a pose: the alignment is based on it, or
stays where the motion has no positions. -/
theorem initMotion_same_posed {r r' : InferenceResult F}
    (hcfg : dc.cfg = cfg.setAnchorBodyIndex)
    (hr : V.Same r.motion r'.motion)
    (hpose : V.Pose r.motion r'.motion) (hb : cfg.numBodies ≠ 0)
    (he : r.jointPos.isEmpty = false) (he' : r'.jointPos.isEmpty = false)
    (hinit : r.motion.bodyPosW.isEmpty = true →
      V.align dc.initAlign dc.initAlign) :
    (∃ e, initMotion dc r = .error e ∧ initMotion dc r' = .error e)
      ∨ ∃ dc₁ dc₁', initMotion dc r = .ok dc₁
        ∧ initMotion dc r' = .ok dc₁' ∧ V.Converters dc₁ dc₁' := by
  have hb' : decide (0 < cfg.setAnchorBodyIndex.numBodies) = true := by
    rw [setAnchor_numBodies]
    exact decide_eq_true (Nat.pos_of_ne_zero hb)
  have hset : ∀ c : MotionCommand F,
      (dc.setMotionCommand c).cfg = cfg.setAnchorBodyIndex :=
    fun _ => hcfg
  unfold initMotion
  rw [he, he']
  simp only [Bool.not_false, if_true, hset, hb', Bool.true_and,
    hpose.bodyPosW]
  cases hw : r.motion.bodyPosW.isEmpty with
  | true =>
      simp only [Bool.not_true, Bool.false_eq_true, if_false]
      exact Or.inr ⟨dc.setMotionCommand r.motion,
        dc.setMotionCommand r'.motion, rfl, rfl, rfl, hcfg, hr,
        Or.inr (hinit hw)⟩
  | false =>
      simp only [Bool.not_false, if_true]
      rcases hpose.pos with ⟨e, hp, hp'⟩ | ⟨p, p', hp, hp', hpp⟩
      · rw [hp, hp']
        exact Or.inl ⟨e, rfl, rfl⟩
      rw [hp, hp']
      rcases hpose.quat with ⟨e, hq, hq'⟩ | ⟨q, q', hq, hq', hqq⟩
      · rw [hq, hq']
        exact Or.inl ⟨e, rfl, rfl⟩
      rw [hq, hq']
      have hbase := V.base p p' q q' hpp hqq
      refine Or.inr ⟨{ dc with
        command := r.motion
        initAlign := TransformAlignment.setBase q p true true },
        { dc with
        command := r'.motion
        initAlign := TransformAlignment.setBase q' p' true true },
        ?_, ?_, rfl, hcfg, hr, Or.inr hbase⟩
      · rw [hcfg]
        rfl
      · rw [hcfg]
        rfl

/-- The dry run on related answers: the alignments are related from
here on. -/
theorem initMotion_same {r r' : InferenceResult F}
    (hcfg : dc.cfg = cfg.setAnchorBodyIndex) (hcmd : dc.command = {})
    (halign : dc.initAlign = TransformAlignment.init)
    (hr : V.Same r.motion r'.motion)
    (hbased : V.align TransformAlignment.init TransformAlignment.init
      ∨ r.motion.empty = false ∧ r.bodyPosW.isEmpty = false) :
    (∃ e, initMotion dc r = .error e ∧ initMotion dc r' = .error e)
      ∨ ∃ dc₁ dc₁', initMotion dc r = .ok dc₁
        ∧ initMotion dc r' = .ok dc₁' ∧ V.Converters dc₁ dc₁' := by
  have hempty := hr.empty
  unfold MotionCommand.empty at hempty
  have hjoint : r'.jointPos.isEmpty = r.jointPos.isEmpty := hempty
  -- where nothing is based on the answer, the alignment is the first one
  have hinit : r.motion.empty = true ∨ r.motion.bodyPosW.isEmpty = true →
      V.align dc.initAlign dc.initAlign := by
    intro h
    rw [halign]
    rcases hbased with hinit | ⟨hne, hw⟩
    · exact hinit
    · have hw' : r.motion.bodyPosW.isEmpty = false := hw
      rw [hne, hw'] at h
      simp at h
  cases he : r.jointPos.isEmpty with
  | true =>
      exact Or.inr (V.initMotion_same_still hcfg hcmd he (hjoint.trans he)
        (hinit (Or.inl he)))
  | false =>
      by_cases hb : cfg.numBodies = 0
      case neg =>
        exact V.initMotion_same_posed hcfg hr (hr.pose.resolve_left hb) hb
          he (hjoint.trans he) fun hw => hinit (Or.inr hw)
      have hb' : ∀ c : MotionCommand F,
          decide (0 < (dc.setMotionCommand c).cfg.numBodies) = false := by
        intro c
        show decide (0 < dc.cfg.numBodies) = false
        rw [hcfg, setAnchor_numBodies, hb]
        rfl
      unfold initMotion
      rw [hjoint, he]
      simp only [Bool.not_false, if_true, hb', Bool.false_and,
        Bool.false_eq_true, if_false]
      exact Or.inr ⟨dc.setMotionCommand r.motion,
        dc.setMotionCommand r'.motion, rfl, rfl, rfl, hcfg, hr, Or.inl hb⟩

/-- What two models answer, as a pair of computations without actions. -/
theorem Models.image {net net' : Policy F} (h : V.Models net net')
    (g : Act F D → Act F D) (obs : List F) (t : Int) :
    Logged.Image g
      (fun r r' => net.infer obs t = .ok r ∧ r'.actions = r.actions
        ∧ V.Same r.motion r'.motion)
      (Logged.lift (net.infer obs t)) (Logged.lift (net'.infer obs t)) := by
  apply Logged.Image.lift
  rcases h.answers obs t with ⟨e, he, he'⟩ | ⟨r, r', hr, hr', ha, hs⟩
  · exact Or.inl ⟨e, he, he'⟩
  · exact Or.inr ⟨r, r', hr, hr', hr, ha, hs⟩

theorem initializeMotion_image {net net' : Policy F}
    (hnet : V.Models net net') {s : Int} (hbased : V.Based net s)
    {n : RLControllerNode F D} {i' : Imu D}
    (himu : V.SameImu n.latestImu i') (ht : n.timestep = s)
    (hcfg : n.converter.cfg = cfg.setAnchorBodyIndex)
    (hcmd : n.converter.command = {})
    (halign : n.converter.initAlign = TransformAlignment.init) :
    Logged.Image id (Nodes V s) (initializeMotion net n)
      (initializeMotion net' { n with latestImu := i' }) := by
  rw [← ht] at hbased
  unfold initializeMotion
  rw [hnet.obsSize]
  refine (Logged.Image.emit id (Act.infer (List.replicate net.obsSize 0)
    n.timestep)).bind fun _ _ _ => ?_
  refine (hnet.image id _ n.timestep).bind ?_
  rintro r r' ⟨hr, ha, hsame⟩
  refine (Logged.Image.lift (R := V.Converters)
    (initMotion_same hcfg hcmd halign hsame
      (hbased.imp_right fun h => h _ hr))).bind ?_
  intro dc₁ dc₁' h₁
  rw [ha]
  refine (Logged.Image.emit id (Act.process r.actions)).bind
    fun _ _ _ => ?_
  refine (Logged.Image.lift
    (R := fun p p' => V.Converters p.1 p'.1 ∧ p'.2 = p.2) ?_).bind ?_
  · rcases h₁.processAction r.actions with he | ⟨p, p', hp, hp', h⟩
    · exact Or.inl he
    · exact Or.inr ⟨p, p', hp, hp', h⟩
  · intro p p' hp
    exact Logged.Image.pure (.after rfl rfl himu hp.1)

omit [Eigen F] [Scalar F D] in
/-- The end of a tick looks neither at the converter nor at a message. -/
theorem advance_with (n : RLControllerNode F D) (dc : DataConverter F)
    (i : Imu D) :
    advance { n with converter := dc, latestImu := i }
      = { advance n with converter := dc, latestImu := i } := by
  unfold advance
  dsimp only
  split <;> rfl

theorem controlTick_image {net net' : Policy F}
    (hnet : V.Models net net') {s : Int} {n n' : RLControllerNode F D}
    (hi : n.initialized = true)
    (heq : n' = { n with
      converter := n'.converter, latestImu := n'.latestImu })
    (himu : V.SameImu n.latestImu n'.latestImu)
    (h : V.Converters n.converter n'.converter) :
    Logged.Image id (Nodes V s) (controlTick net n)
      (controlTick net' n') := by
  have hobs := h.buildObservation n.latestImu.angularVelocity.narrow
    himu.orientation n.latestJointState.name
    n.latestJointState.position n.latestJointState.velocity
  generalize n'.converter = dc' at heq h hobs
  generalize n'.latestImu = i' at heq himu hobs
  subst heq
  unfold controlTick
  dsimp only
  rw [himu.velocity, hobs]
  refine (Logged.Image.same id _).bind ?_
  rintro obs _ rfl
  refine (Logged.Image.emit id (Act.infer obs n.timestep)).bind
    fun _ _ _ => ?_
  refine (hnet.image id obs n.timestep).bind ?_
  rintro r r' ⟨-, ha, hsame⟩
  rw [ha]
  refine (Logged.Image.emit id (Act.process r.actions)).bind
    fun _ _ _ => ?_
  refine (Logged.Image.lift
    (R := fun p p' => V.Converters p.1 p'.1 ∧ p'.2 = p.2) ?_).bind ?_
  · rcases (updateMotion_same h hsame).processAction r.actions with
      he | ⟨p, p', hp, hp', h₂⟩
    · exact Or.inl he
    · exact Or.inr ⟨p, p', hp, hp', h₂⟩
  rintro ⟨dc₂, scaled⟩ ⟨dc₂', scaled'⟩ ⟨h₂, hscaled⟩
  have htarget : dc₂'.computePdTarget scaled'
      = dc₂.computePdTarget scaled := by
    rw [show scaled' = scaled from hscaled]
    exact h₂.computePdTarget scaled
  show Logged.Image id _ (Logged.lift (dc₂.computePdTarget scaled) >>= _)
    (Logged.lift (dc₂'.computePdTarget scaled') >>= _)
  rw [htarget]
  refine (Logged.Image.same id _).bind ?_
  rintro target _ rfl
  rw [h₂.actionToJointCmd]
  refine (Logged.Image.emit id
    (Act.publish (dc₂.actionToJointCmd target))).bind fun _ _ _ => ?_
  have hleft := advance_with n dc₂ n.latestImu
  have hright := advance_with n dc₂' i'
  refine Logged.Image.pure (.after ?_ ?_ ?_ ?_)
  · rw [advance_initialized]
    exact hi
  · rw [hright]
    show _ = { advance { n with converter := dc₂ } with
      converter := dc₂', latestImu := i' }
    rw [hleft]
  · rw [hleft, hright]
    exact himu
  · rw [hleft, hright]
    exact h₂

/-- One callback of each run. -/
theorem step_image {net net' : Policy F} (hnet : V.Models net net')
    {s : Int} (hbased : V.Based net s) {n n' : RLControllerNode F D}
    (h : Nodes V s n n') {e e' : Event D} (he : V.Events e e') :
    Logged.Image id (Nodes V s) (step net n e) (step net' n' e') := by
  cases he with
  | jointState msg =>
      refine Logged.Image.pure ?_
      cases h with
      | before hi heq himu ht hcfg hcmd halign =>
          rw [heq]
          exact .before hi rfl himu ht hcfg hcmd halign
      | after hi heq himu h =>
          rw [heq]
          exact .after hi rfl himu h
  | imu hmsg =>
      refine Logged.Image.pure ?_
      cases h with
      | before hi heq himu ht hcfg hcmd halign =>
          rw [heq]
          exact .before hi rfl hmsg ht hcfg hcmd halign
      | after hi heq himu h =>
          rw [heq]
          exact .after hi rfl hmsg h
  | timer =>
      show Logged.Image id _ (n.timerCallback net) (n'.timerCallback net')
      have hflags := h.sameFlags
      cases h with
      | before hi heq himu ht hcfg hcmd halign =>
          unfold timerCallback
          rw [hflags.jointReceived, hflags.imuReceived,
            hflags.initialized, hi]
          by_cases hw : (!n.jointReceived || !n.imuReceived) = true
          · rw [if_pos hw, if_pos hw]
            exact Logged.Image.pure
              (.before hi heq himu ht hcfg hcmd halign)
          rw [if_neg hw, if_neg hw]
          simp only [Bool.not_false, if_true]
          rw [heq]
          exact initializeMotion_image hnet hbased himu ht hcfg hcmd halign
      | after hi heq himu h =>
          unfold timerCallback
          rw [hflags.jointReceived, hflags.imuReceived,
            hflags.initialized, hflags.flagMotionDone, hi]
          by_cases hw : (!n.jointReceived || !n.imuReceived) = true
          · rw [if_pos hw, if_pos hw]
            exact Logged.Image.pure (.after hi heq himu h)
          rw [if_neg hw, if_neg hw]
          simp only [Bool.not_true, Bool.false_eq_true, if_false]
          by_cases hd : n.flagMotionDone = true
          · rw [if_pos hd, if_pos hd]
            exact Logged.Image.pure (.after hi heq himu h)
          rw [if_neg hd, if_neg hd]
          exact controlTick_image hnet hi heq himu h

/-- A view does not tell an event from itself. -/
theorem Events.refl (V : View cfg) (e : Event D) : V.Events e e := by
  cases e with
  | jointState msg => exact .jointState msg
  | imu msg => exact .imu ⟨rfl, V.robot_refl _⟩
  | timer => exact .timer

/-- Two models and two sequences of events that a view does not tell
apart: the runs have one log, and end in the same fault or both
return. -/
theorem run_log {net net' : Policy F} (hnet : V.Models net net')
    {s : Int} (hbased : V.Based net s) (m : Int) {evs evs' : List (Event D)}
    (hevs : List.Forall₂ V.Events evs evs') :
    (run net' (start cfg s m) evs').log
        = (run net (start cfg s m) evs).log
      ∧ ((∃ e, (run net (start cfg s m) evs).out = .error e
          ∧ (run net' (start cfg s m) evs').out = .error e)
        ∨ ∃ n n', (run net (start cfg s m) evs).out = .ok n
          ∧ (run net' (start cfg s m) evs').out = .ok n') := by
  have hstart : Nodes (D := D) V s (start cfg s m) (start cfg s m) := by
    refine .before rfl rfl ⟨rfl, V.robot_refl _⟩ rfl
      (DataConverter.configure_cfg _ _) ?_ ?_
    · exact DataConverter.configure_command _ _
    · exact DataConverter.configure_initAlign _ _
  obtain ⟨hlog, hout⟩ := Logged.run_image (step net) (step net') id
    (Nodes V s) V.Events
    (fun n n' e e' h he => step_image hnet hbased h he) hstart hevs
  rw [List.map_id] at hlog
  refine ⟨hlog, ?_⟩
  rcases hout with herr | ⟨n, n', hn, hn', -⟩
  · exact Or.inl herr
  · exact Or.inr ⟨n, n', hn, hn'⟩

/-- The same for one sequence of events. -/
theorem run_log_same {net net' : Policy F} (hnet : V.Models net net')
    {s : Int} (hbased : V.Based net s) (m : Int) (evs : List (Event D)) :
    (run net' (start cfg s m) evs).log = (run net (start cfg s m) evs).log
      ∧ ((∃ e, (run net (start cfg s m) evs).out = .error e
          ∧ (run net' (start cfg s m) evs).out = .error e)
        ∨ ∃ n n', (run net (start cfg s m) evs).out = .ok n
          ∧ (run net' (start cfg s m) evs).out = .ok n') :=
  run_log hnet hbased m (List.forall₂_same.mpr fun e _ => Events.refl V e)

end View

-- ===================================================== other bodies

/-- One orientation, read or not, in a view that tells apart any two. -/
theorem View.quat_same {cfg : BeyondMimicConfig F} (V : View cfg)
    (hV : V.quat = Eq) (c : MotionCommand F) :
    (∃ e, c.bodyQuat cfg.setAnchorBodyIndex.anchorBodyIndex = .error e
        ∧ c.bodyQuat cfg.setAnchorBodyIndex.anchorBodyIndex = .error e)
      ∨ ∃ q q', c.bodyQuat cfg.setAnchorBodyIndex.anchorBodyIndex = .ok q
        ∧ c.bodyQuat cfg.setAnchorBodyIndex.anchorBodyIndex = .ok q'
        ∧ V.quat q q' := by
  cases hq : c.bodyQuat cfg.setAnchorBodyIndex.anchorBodyIndex with
  | error e => exact Or.inl ⟨e, rfl, rfl⟩
  | ok q =>
      refine Or.inr ⟨q, q, rfl, rfl, ?_⟩
      rw [hV]

/-- The anchor as it is: its position too, where the observations have
one, and its alignment. -/
def View.anchor (cfg : BeyondMimicConfig F) : View cfg where
  pos p p' := cfg.withoutStateEstimator = true ∨ p' = p
  quat := Eq
  robot := Eq
  align a a' := a'.rBase = a.rBase
    ∧ (cfg.withoutStateEstimator = true ∨ a'.pBase = a.pBase)
  robot_refl _ := rfl
  base p p' q _ h hq := by
    rw [← hq]
    refine ⟨rfl, ?_⟩
    rcases h with h | rfl
    · exact Or.inl h
    · exact Or.inr rfl
  unseen a a' i _ p p' q _ ha hi hp hq := by
    rw [← hi, ← hq]
    have hflag : cfg.setAnchorBodyIndex.withoutStateEstimator
        = cfg.withoutStateEstimator := by
      unfold BeyondMimicConfig.setAnchorBodyIndex
      split <;> rfl
    have hquat : a'.alignQuat q = a.alignQuat q := by
      unfold TransformAlignment.alignQuat
      rw [ha.1]
    cases hw : cfg.withoutStateEstimator with
    | true =>
        -- the three values that the positions enter are left out
        unfold DataConverter.poseBlock
        rw [hflag, hw, hquat]
        rfl
    | false =>
        have hp' : p' = p := by
          rcases hp with h | h
          · rw [hw] at h
            cases h
          · exact h
        have hbase : a'.pBase = a.pBase := by
          rcases ha.2 with h | h
          · rw [hw] at h
            cases h
          · exact h
        have hpos : a'.alignPos p' = a.alignPos p := by
          unfold TransformAlignment.alignPos
          rw [ha.1, hbase, hp']
        unfold DataConverter.poseBlock
        rw [hquat, hpos]

namespace RLControllerNode

variable {cfg : BeyondMimicConfig F}

/-- Two motions alike in what is read of them: the joints, and where
there are bodies the orientation of the anchor and, with a state
estimator, its position. The vectors of positions are equally long. -/
structure SameAnchor (cfg : BeyondMimicConfig F)
    (c c' : MotionCommand F) : Prop where
  jointPos : c'.jointPos = c.jointPos
  jointVel : c'.jointVel = c.jointVel
  bodies : cfg.numBodies = 0
    ∨ c'.bodyPosW.length = c.bodyPosW.length
      ∧ c'.bodyQuat cfg.setAnchorBodyIndex.anchorBodyIndex
        = c.bodyQuat cfg.setAnchorBodyIndex.anchorBodyIndex
      ∧ (cfg.withoutStateEstimator = false →
        c'.bodyPos cfg.setAnchorBodyIndex.anchorBodyIndex
          = c.bodyPos cfg.setAnchorBodyIndex.anchorBodyIndex)

omit [Eigen F] [Scalar F D] in
theorem anchorIndex_nat (cfg : BeyondMimicConfig F) :
    ∃ k : Nat, cfg.setAnchorBodyIndex.anchorBodyIndex = k := by
  unfold BeyondMimicConfig.setAnchorBodyIndex
  split
  · exact ⟨_, rfl⟩
  · exact ⟨0, rfl⟩

omit [Eigen F] [Scalar F D] in
/-- Whether a position can be read depends on the length alone. -/
theorem bodyPos_length (cfg : BeyondMimicConfig F)
    {c c' : MotionCommand F}
    (h : c'.bodyPosW.length = c.bodyPosW.length) :
    (∃ e, c.bodyPos cfg.setAnchorBodyIndex.anchorBodyIndex = .error e
        ∧ c'.bodyPos cfg.setAnchorBodyIndex.anchorBodyIndex = .error e)
      ∨ ∃ p p',
        c.bodyPos cfg.setAnchorBodyIndex.anchorBodyIndex = .ok p
        ∧ c'.bodyPos cfg.setAnchorBodyIndex.anchorBodyIndex = .ok p' := by
  obtain ⟨k, hk⟩ := anchorIndex_nat cfg
  rw [hk]
  by_cases hlen : 3 * k + 2 < c.bodyPosW.length
  · obtain ⟨p, hp⟩ := MotionCommand.bodyPos_isOk_iff.mpr hlen
    obtain ⟨p', hp'⟩ : ∃ p', c'.bodyPos k = .ok p' :=
      MotionCommand.bodyPos_isOk_iff.mpr (by rw [h]; exact hlen)
    exact Or.inr ⟨p, p', hp, hp'⟩
  · have hshort : ∀ d : MotionCommand F,
        d.bodyPosW.length = c.bodyPosW.length →
        d.bodyPos k = .error (.index .bodyPosW) := by
      intro d hd
      cases hp : d.bodyPos k with
      | error e => rw [MotionCommand.bodyPos_error hp]
      | ok p =>
          have := MotionCommand.bodyPos_isOk_iff.mp ⟨p, hp⟩
          omega
    exact Or.inl ⟨_, hshort c rfl, hshort c' h⟩

theorem SameAnchor.view {c c' : MotionCommand F}
    (h : SameAnchor cfg c c') : (View.anchor cfg).Same c c' := by
  refine ⟨h.jointPos, h.jointVel, ?_⟩
  rcases h.bodies with hb | ⟨hlen, hquat, hpos⟩
  · exact Or.inl hb
  refine Or.inr ⟨?_, ?_, ?_⟩
  · rw [Bool.eq_iff_iff, List.isEmpty_iff, List.isEmpty_iff,
      ← List.length_eq_zero_iff, ← List.length_eq_zero_iff, hlen]
  · rcases bodyPos_length cfg hlen with he | ⟨p, p', hp, hp'⟩
    · exact Or.inl he
    refine Or.inr ⟨p, p', hp, hp', ?_⟩
    cases hw : cfg.withoutStateEstimator with
    | true => exact Or.inl hw
    | false =>
        have := hpos hw
        rw [hp, hp'] at this
        exact Or.inr (Except.ok.inj this)
  · rw [hquat]
    exact View.quat_same _ rfl c

/-- Two models whose answers agree in the actions, the joint motion and
the anchor's orientation, and with a state estimator in the anchor's
position, drive the robot alike: whatever else they say about the bodies
of their worlds, every run asks them for the same and publishes the same,
and stops in the same fault or goes on. -/
theorem only_anchor_seen (cfg : BeyondMimicConfig F)
    {net net' : Policy F} (hsize : net'.obsSize = net.obsSize)
    (hnet : ∀ obs t,
      (∃ e, net.infer obs t = .error e ∧ net'.infer obs t = .error e)
      ∨ ∃ r r', net.infer obs t = .ok r ∧ net'.infer obs t = .ok r'
        ∧ r'.actions = r.actions ∧ SameAnchor cfg r.motion r'.motion)
    (s m : Int) (evs : List (Event D)) :
    (run net' (start cfg s m) evs).log = (run net (start cfg s m) evs).log
      ∧ ((∃ e, (run net (start cfg s m) evs).out = .error e
          ∧ (run net' (start cfg s m) evs).out = .error e)
        ∨ ∃ n n', (run net (start cfg s m) evs).out = .ok n
          ∧ (run net' (start cfg s m) evs).out = .ok n') := by
  have hmodels : (View.anchor cfg).Models net net' := by
    refine ⟨hsize, ?_⟩
    intro obs t
    rcases hnet obs t with he | ⟨r, r', hr, hr', ha, hs⟩
    · exact Or.inl he
    · exact Or.inr ⟨r, r', hr, hr', ha, hs.view⟩
  have hbased : (View.anchor cfg).Based net s := Or.inl ⟨rfl, Or.inr rfl⟩
  exact View.run_log_same hmodels hbased m evs

/-- `crossed` with a second body, which is not the anchor. -/
def twoBodies : BeyondMimicConfig ℚ :=
  { DataConverter.crossed with bodyNames := ["base", "head"] }

/-- An answer with the anchor upright at `p` and the head anywhere. -/
def withHead (p : ℚ) (head : Quat ℚ) : InferenceResult ℚ :=
  { fullResult with
    bodyPosW := [p, 0, 1, p, p, p]
    bodyQuatW := [1, 0, 0, 0, head.w, head.x, head.y, head.z] }

/-- A model whose world stands still, and one whose world drifts. -/
def still : Policy ℚ :=
  Policy.ofFun 19 fun _ _ => withHead 5 ⟨1, 0, 0, 0⟩

def drifting : Policy ℚ :=
  Policy.ofFun 19 fun _ t => withHead t ⟨0, 1, 0, 0⟩

theorem only_anchor_seen_twoBodies :
    (run drifting (start twoBodies 3 (-1)) twoReady).log
      = (run still (start twoBodies 3 (-1)) twoReady).log := by
  have hsize : drifting.obsSize = still.obsSize := rfl
  have hnet : ∀ obs t,
      (∃ e, still.infer obs t = .error e
        ∧ drifting.infer obs t = .error e)
      ∨ ∃ r r', still.infer obs t = .ok r ∧ drifting.infer obs t = .ok r'
        ∧ r'.actions = r.actions
        ∧ SameAnchor twoBodies r.motion r'.motion := by
    intro obs t
    refine Or.inr ⟨_, _, rfl, rfl, rfl, rfl, rfl, Or.inr ⟨rfl, rfl, ?_⟩⟩
    intro hw
    exact absurd hw (by decide)
  exact (only_anchor_seen twoBodies hsize hnet 3 (-1) twoReady).1

end RLControllerNode

-- ==================================================== over the ground

/-- Body positions moved over the ground, by `x` and `y` each. -/
def overGround (x y : ℚ) (bodyPosW : List ℚ) : List ℚ :=
  bodyPosW.mapIdx fun i v =>
    if i % 3 = 0 then v + x else if i % 3 = 1 then v + y else v

/-- The model whose world stands elsewhere on the ground. -/
def Policy.overGround (net : Policy ℚ) (x y : ℚ) : Policy ℚ where
  obsSize := net.obsSize
  infer obs t := do
    let r ← net.infer obs t
    return { r with bodyPosW := RlDeploy.overGround x y r.bodyPosW }

section Ground

variable [Eigen ℚ] {cfg : BeyondMimicConfig ℚ} {x y : ℚ}

/-- The anchor and its alignment, moved alike. -/
def View.ground (cfg : BeyondMimicConfig ℚ) (x y : ℚ) : View cfg where
  pos p p' := p' = ⟨p.x + x, p.y + y, p.z⟩
  quat := Eq
  robot := Eq
  align a a' := a'.rBase = a.rBase
    ∧ a'.pBase = ⟨a.pBase.x + x, a.pBase.y + y, a.pBase.z⟩
  robot_refl _ := rfl
  base p p' q _ h hq := by
    rw [h, ← hq]
    exact ⟨rfl, rfl⟩
  unseen a a' i _ p p' q _ ha hi hp hq := by
    rw [← hi, ← hq]
    have hsub : p'.sub a'.pBase = p.sub a.pBase := by
      rw [ha.2, hp]
      unfold Vec3.sub
      congr 1
      · exact add_sub_add_right_eq_sub p.x a.pBase.x x
      · exact add_sub_add_right_eq_sub p.y a.pBase.y y
    have hpos : a'.alignPos p' = a.alignPos p := by
      unfold TransformAlignment.alignPos
      rw [hsub, ha.1]
    have hquat : a'.alignQuat q = a.alignQuat q := by
      unfold TransformAlignment.alignQuat
      rw [ha.1]
    unfold DataConverter.poseBlock
    rw [hpos, hquat]

omit [Eigen ℚ] in
/-- A moved body is where it was, moved. -/
theorem bodyPos_overGround (c : MotionCommand ℚ) (k : Nat) :
    ({ c with bodyPosW := overGround x y c.bodyPosW } :
        MotionCommand ℚ).bodyPos k
      = (c.bodyPos k).map fun p => ⟨p.x + x, p.y + y, p.z⟩ := by
  rw [MotionCommand.bodyPos_natCast, MotionCommand.bodyPos_natCast]
  have hread : ∀ i : Nat, Lib.read (Fault.index .bodyPosW)
      (overGround x y c.bodyPosW) i
      = (Lib.read (Fault.index .bodyPosW) c.bodyPosW i).map fun v =>
        if i % 3 = 0 then v + x else if i % 3 = 1 then v + y else v := by
    intro i
    unfold Lib.read overGround
    rw [List.getElem?_mapIdx]
    cases c.bodyPosW[i]? <;> rfl
  have h₀ : 3 * k % 3 = 0 := by omega
  have h₁ : (3 * k + 1) % 3 = 1 := by omega
  have h₂ : (3 * k + 2) % 3 = 2 := by omega
  simp only [hread, h₀, h₁, h₂]
  cases Lib.read (Fault.index .bodyPosW) c.bodyPosW (3 * k) with
  | error e => rfl
  | ok px =>
      cases Lib.read (Fault.index .bodyPosW) c.bodyPosW (3 * k + 1) with
      | error e => rfl
      | ok py =>
          cases Lib.read (Fault.index .bodyPosW) c.bodyPosW (3 * k + 2) with
          | error e => rfl
          | ok pz => rfl

/-- The view does not tell a model from the one moved over the ground. -/
theorem View.ground_models (cfg : BeyondMimicConfig ℚ) (x y : ℚ)
    (net : Policy ℚ) :
    (View.ground cfg x y).Models net (net.overGround x y) := by
  refine ⟨rfl, ?_⟩
  intro obs t
  cases hr : net.infer obs t with
  | error e =>
      refine Or.inl ⟨e, rfl, ?_⟩
      show (net.infer obs t >>= _) = _
      rw [hr]
      rfl
  | ok r =>
      refine Or.inr ⟨r, { r with
        bodyPosW := RlDeploy.overGround x y r.bodyPosW }, rfl, ?_, rfl, ?_⟩
      · show (net.infer obs t >>= _) = _
        rw [hr]
        rfl
      refine ⟨rfl, rfl, Or.inr ⟨?_, ?_, View.quat_same _ rfl r.motion⟩⟩
      · show (r.bodyPosW.mapIdx _).isEmpty = r.bodyPosW.isEmpty
        rw [Bool.eq_iff_iff, List.isEmpty_iff, List.isEmpty_iff,
          List.mapIdx_eq_nil_iff]
      · obtain ⟨k, hk⟩ := RLControllerNode.anchorIndex_nat cfg
        have hmoved := bodyPos_overGround (x := x) (y := y) r.motion k
        rw [hk]
        cases hp : r.motion.bodyPos k with
        | error e =>
            rw [hp] at hmoved
            exact Or.inl ⟨e, rfl, hmoved⟩
        | ok p =>
            rw [hp] at hmoved
            exact Or.inr ⟨p, _, rfl, hmoved, rfl⟩

namespace RLControllerNode

/-- Where on the ground the model's world stands does not matter: with
every body position of every answer moved over the ground by the same
step, every run asks the model for the same and publishes the same, and
stops in the same fault or goes on, provided that the dry run gives the
pose to align to. -/
theorem ground_shift (net : Policy ℚ) (cfg : BeyondMimicConfig ℚ)
    (x y : ℚ) {s : Int}
    (hdry : ∀ r, net.infer (List.replicate net.obsSize 0) s = .ok r →
      r.jointPos ≠ [] ∧ r.bodyPosW ≠ [])
    (m : Int) (evs : List (Event ℚ)) :
    (run (net.overGround x y) (start cfg s m) evs).log
        = (run net (start cfg s m) evs).log
      ∧ ((∃ e, (run net (start cfg s m) evs).out = .error e
          ∧ (run (net.overGround x y) (start cfg s m) evs).out = .error e)
        ∨ ∃ n n', (run net (start cfg s m) evs).out = .ok n
          ∧ (run (net.overGround x y) (start cfg s m) evs).out = .ok n')
    := by
  have hbased : (View.ground cfg x y).Based net s := by
    refine Or.inr ?_
    intro r hr
    obtain ⟨hjoint, hbody⟩ := hdry r hr
    exact ⟨List.isEmpty_eq_false_iff.mpr hjoint,
      List.isEmpty_eq_false_iff.mpr hbody⟩
  exact View.run_log_same (View.ground_models cfg x y net) hbased m evs

end RLControllerNode

end Ground

namespace RLControllerNode

/-- `crossed` with the anchor's position in the observation. -/
def estimated : BeyondMimicConfig ℚ :=
  { DataConverter.crossed with
    withoutStateEstimator := false
    overrideRobotAnchorPos := false }

theorem ground_shift_estimated :
    (run ((Policy.ofFun 22 fun _ _ => fullResult).overGround 7 (-2))
        (start estimated 3 (-1)) twoReady).log
      = (run (Policy.ofFun 22 fun _ _ => fullResult)
        (start estimated 3 (-1)) twoReady).log := by
  have hdry : ∀ r, (Policy.ofFun 22 fun _ _ => fullResult).infer
      (List.replicate 22 0) 3 = .ok r →
      r.jointPos ≠ [] ∧ r.bodyPosW ≠ [] := by
    intro r hr
    cases hr
    exact ⟨by decide, by decide⟩
  exact (ground_shift _ estimated 7 (-2) hdry (-1) twoReady).1

end RLControllerNode

end RlDeploy
