/-
Models that lack some of the motion outputs.

`OnnxInfer::infer` accepts any number of outputs and leaves the absent
ones empty. Which reads of the converter and of `initializeMotion` then
leave their vector? The guards are not the same everywhere: an empty
`joint_pos` switches every use of the motion off, an empty `body_pos_w`
only its use in `initializeMotion`, and nothing asks for `joint_vel` or
`body_quat_w`.

The outputs a model has are four flags (`Outputs`), and
`Outputs.tolerated` is the combination of flags, sizes and number of
ready timer events under which a run stays in bounds. That it is exactly
that one is an instance of the verdict rule of `Logged`: the dry run
fails exactly when it is the first ready timer event and the flags are
not `initSafe`, a tick exactly when they are not `tickSafe`.

The results come with the events, so that the theorem is about every
sequence of results, also of a model whose answers are no function of
its inputs.
-/
import RlDeploy.Node.Proofs.Steady

namespace RlDeploy

open Lib

variable {F D : Type} [Scalar F D] [Eigen F]

-- ==================================================== which outputs exist

/-- Which of the motion outputs the model has. -/
structure Outputs where
  jointPos : Bool
  jointVel : Bool
  bodyPosW : Bool
  bodyQuatW : Bool

namespace Outputs

/-- Every output the model has at full size, the others empty. -/
structure Fills (o : Outputs) (n b : Nat) (c : MotionCommand F) :
    Prop where
  jointPos : c.jointPos.length = if o.jointPos then n else 0
  jointVel : c.jointVel.length = if o.jointVel then n else 0
  bodyPosW : c.bodyPosW.length = if o.bodyPosW then 3 * b else 0
  bodyQuatW : c.bodyQuatW.length = if o.bodyQuatW then 4 * b else 0

/-- The motion is not empty, in the sense of `MotionCommand::empty`. -/
def present (o : Outputs) (n : Nat) : Bool :=
  o.jointPos && decide (0 < n)

/-- `initializeMotion` finds the vectors it reads. -/
def initSafe (o : Outputs) (b : Nat) : Bool :=
  decide (b = 0) || !o.bodyPosW || o.bodyQuatW

/-- `buildObservation` finds the vectors it reads. -/
def tickSafe (o : Outputs) (b : Nat) : Bool :=
  o.jointVel && (decide (b = 0) || (o.bodyPosW && o.bodyQuatW))

/-- The outputs suffice for a run with `ready` ready timer events, the
first of which initialises. -/
def tolerated (o : Outputs) (n b ready : Nat) : Bool :=
  !o.present n || ((decide (ready = 0) || o.initSafe b)
    && (decide (ready ≤ 1) || o.tickSafe b))

variable {o : Outputs} {n b : Nat} {c : MotionCommand F}

omit [Scalar F D] [Eigen F] in
theorem Fills.empty_eq (h : o.Fills n b c) :
    c.empty = !o.present n := by
  have hlen := h.jointPos
  unfold present
  cases hj : o.jointPos with
  | false =>
      rw [hj, if_neg (by simp)] at hlen
      rw [MotionCommand.empty_iff.mpr (List.length_eq_zero_iff.mp hlen)]
      rfl
  | true =>
      rw [hj, if_pos rfl] at hlen
      by_cases hn : 0 < n
      case pos =>
        have hne : c.empty ≠ true := by
          intro he
          rw [MotionCommand.empty_iff.mp he] at hlen
          simp at hlen
          omega
        simp [hn, hne]
      case neg =>
        have hz : c.jointPos.length = 0 := by omega
        rw [MotionCommand.empty_iff.mpr (List.length_eq_zero_iff.mp hz)]
        simp [hn]

theorem tolerated_mono {ready ready' : Nat} (hle : ready ≤ ready')
    (h : o.tolerated n b ready' = true) :
    o.tolerated n b ready = true := by
  unfold tolerated at h ⊢
  simp only [Bool.or_eq_true, Bool.and_eq_true, decide_eq_true_eq] at h ⊢
  refine h.imp id fun ⟨hinit, htick⟩ => ⟨?_, ?_⟩
  · exact hinit.imp (fun h₀ => by omega) id
  · exact htick.imp (fun h₁ => by omega) id

/-- What a tick reads includes what the dry run reads. -/
theorem initSafe_of_tickSafe (h : o.tickSafe b = true) :
    o.initSafe b = true := by
  unfold tickSafe at h
  unfold initSafe
  simp only [Bool.and_eq_true, Bool.or_eq_true] at h ⊢
  rcases h.2 with hb | ⟨-, hq⟩
  · exact Or.inl (Or.inl hb)
  · exact Or.inr hq

/-- The first ready timer event is the dry run. -/
theorem tolerated_one :
    o.tolerated n b 1 = (!o.present n || o.initSafe b) := by
  unfold tolerated
  rw [decide_eq_false Nat.one_ne_zero, decide_eq_true (le_refl 1),
    Bool.false_or, Bool.true_or, Bool.and_true]

/-- From the second ready timer event on, the ticks decide. -/
theorem tolerated_succ {ready : Nat} (hpos : 0 < ready) :
    o.tolerated n b (ready + 1) = (!o.present n || o.tickSafe b) := by
  unfold tolerated
  have h₀ : decide (ready + 1 = 0) = false := by simp
  have h₁ : decide (ready + 1 ≤ 1) = false := by simp; omega
  rw [h₀, h₁, Bool.false_or, Bool.false_or]
  cases ht : o.tickSafe b with
  | false => rw [Bool.and_false]
  | true => rw [initSafe_of_tickSafe ht, Bool.and_true]

end Outputs

-- ============================================= the reads, flag by flag

namespace DataConverter

variable {base dc : DataConverter F} {o : Outputs}

omit [Eigen F] in
/-- With a filled, present motion command, an observation can be built
exactly when the flags are `tickSafe`. -/
theorem observable_iff_tickSafe (hb : base.Ready)
    (hset : dc.SameSetup base) (hlast : dc.lastAction.length = base.numDof)
    (hne : dc.command.empty = false)
    (hfill : o.Fills base.numDof base.cfg.numBodies dc.command) :
    dc.Observable ↔ o.tickSafe base.cfg.numBodies = true := by
  have hpres := hfill.empty_eq
  rw [hne] at hpres
  unfold Outputs.present at hpres
  obtain ⟨hj, hn⟩ : o.jointPos = true ∧ 0 < base.numDof := by
    simpa using hpres.symm
  have hjp := hfill.jointPos
  have hjv := hfill.jointVel
  have hbp := hfill.bodyPosW
  have hbq := hfill.bodyQuatW
  obtain ⟨k, hk, hlt⟩ := hb.anchor
  unfold Outputs.tickSafe
  simp only [Bool.or_eq_true, Bool.and_eq_true, decide_eq_true_eq]
  constructor
  · intro hobs
    refine ⟨?_, ?_⟩
    · rcases hobs.command with he | ⟨-, hv⟩
      · rw [hne] at he
        cases he
      by_contra hno
      rw [hset.numDof, hjv, if_neg hno] at hv
      omega
    · by_cases hzero : base.cfg.numBodies = 0
      case pos => exact Or.inl hzero
      right
      have hanchor := hobs.anchor hne
      rw [hset.cfg, hk] at hanchor
      obtain ⟨hp, hq⟩ := hanchor (Nat.pos_of_ne_zero hzero) (by simp)
      refine ⟨?_, ?_⟩
      · by_contra hno
        rw [hbp, if_neg hno] at hp
        omega
      · by_contra hno
        rw [hbq, if_neg hno] at hq
        omega
  · intro ⟨hv, hbodies⟩
    have hready := hset.ready hb
    refine ⟨hready.tarLen, hready.default, ?_, Or.inr ⟨?_, ?_⟩, ?_⟩
    · rw [hset.numDof, hlast]
    · rw [hset.numDof, hjp, if_pos hj]
    · rw [hset.numDof, hjv, if_pos hv]
    · intro _ hpos _
      rw [hset.cfg] at hpos
      rw [hset.cfg, hk, Int.toNat_natCast]
      have hlt' := hlt hpos
      rcases hbodies with hzero | ⟨hp, hq⟩
      · omega
      · rw [hbp, hbq, if_pos hp, if_pos hq]
        omega

omit [Eigen F] in
/-- Without a motion command an observation can always be built. -/
theorem observable_of_empty (hb : base.Ready)
    (hset : dc.SameSetup base) (hlast : dc.lastAction.length = base.numDof)
    (he : dc.command.empty = true) : dc.Observable := by
  have hready := hset.ready hb
  refine ⟨hready.tarLen, hready.default, ?_, Or.inl he, ?_⟩
  · rw [hset.numDof, hlast]
  · intro hne
    rw [he] at hne
    cases hne

omit [Eigen F] in
/-- Both cases: the flags decide whether an observation can be built. -/
theorem observable_iff_safe (hb : base.Ready)
    (hset : dc.SameSetup base) (hlast : dc.lastAction.length = base.numDof)
    (he : dc.command.empty = !o.present base.numDof)
    (hfill : dc.command.empty = false →
      o.Fills base.numDof base.cfg.numBodies dc.command) :
    dc.Observable
      ↔ (!o.present base.numDof || o.tickSafe base.cfg.numBodies)
        = true := by
  rw [← he]
  cases hc : dc.command.empty with
  | true => simpa using observable_of_empty hb hset hlast hc
  | false =>
      simpa using observable_iff_tickSafe hb hset hlast hc (hfill hc)

end DataConverter

namespace RLControllerNode

variable {base dc : DataConverter F} {o : Outputs}
  {r : InferenceResult F}

/-- The dry run's update returns when the motion is not present, and
otherwise exactly when the flags are `initSafe`. -/
theorem initMotion_isOk_iff (hb : base.Ready)
    (hset : dc.SameSetup base)
    (hfill : o.Fills base.numDof base.cfg.numBodies r.motion) :
    (∃ dc₁, initMotion dc r = .ok dc₁)
      ↔ (!o.present base.numDof || o.initSafe base.cfg.numBodies)
        = true := by
  have hemp : r.jointPos.isEmpty = !o.present base.numDof :=
    hfill.empty_eq
  have hbp : r.bodyPosW.length = _ := hfill.bodyPosW
  have hbq : r.bodyQuatW.length = _ := hfill.bodyQuatW
  obtain ⟨k, hk, hlt⟩ := hb.anchor
  have hcfg : (dc.setMotionCommand r.motion).cfg = base.cfg := hset.cfg
  unfold initMotion
  rw [hemp]
  cases hpres : o.present base.numDof with
  | false => simp
  | true =>
    simp only [Bool.not_true, Bool.not_false, if_true, Bool.false_or]
    rw [hcfg, hk]
    unfold Outputs.initSafe
    by_cases hzero : base.cfg.numBodies = 0
    case pos => simp [hzero]
    have hpos := Nat.pos_of_ne_zero hzero
    have hlt' := hlt hpos
    cases hp : o.bodyPosW with
    | false =>
        rw [hp, if_neg (by simp)] at hbp
        have hnil : r.motion.bodyPosW.isEmpty = true := by
          rw [List.isEmpty_iff]
          exact List.length_eq_zero_iff.mp hbp
        simp [hnil]
    | true =>
        rw [hp, if_pos rfl] at hbp
        have hne : r.motion.bodyPosW.isEmpty = false := by
          rw [List.isEmpty_eq_false_iff, ← List.length_pos_iff]
          show 0 < r.bodyPosW.length
          omega
        obtain ⟨p, hp'⟩ := MotionCommand.bodyPos_isOk_iff.mpr
          (show 3 * k + 2 < r.motion.bodyPosW.length from by
            show _ < r.bodyPosW.length
            omega)
        have hquat := MotionCommand.bodyQuat_isOk_iff (c := r.motion)
          (k := k)
        have hlen : r.motion.bodyQuatW.length
            = if o.bodyQuatW then 4 * base.cfg.numBodies else 0 := hbq
        rw [hlen] at hquat
        simp only [hpos, hne, hp', decide_true, Bool.not_false,
          Bool.and_self, if_true, ok_bind, hzero, decide_false,
          Bool.not_true, Bool.false_or, bind_eq_ok_iff]
        constructor
        · rintro ⟨dc₁, q, hq, -⟩
          have := hquat.mp ⟨q, hq⟩
          by_contra hno
          rw [if_neg hno] at this
          omega
        · intro hq
          rw [if_pos hq] at hquat
          obtain ⟨q, hq'⟩ := hquat.mpr (by omega)
          exact ⟨_, q, hq', rfl⟩

/-- The dry run's update can only run out of the body vectors. -/
theorem initMotion_error {e : Fault}
    (h : initMotion dc r = .error e) :
    e = .index .bodyPosW ∨ e = .index .bodyQuatW := by
  unfold initMotion at h
  dsimp only at h
  split at h
  · split at h
    · rcases bind_eq_error_iff.mp h with h | ⟨_, -, h⟩
      · exact Or.inl (MotionCommand.bodyPos_error h)
      · rcases bind_eq_error_iff.mp h with h | ⟨_, -, h⟩
        · exact Or.inr (MotionCommand.bodyQuat_error h)
        · cases h
    · cases h
  · cases h

-- ========================================================= the verdict

/-- The vectors of a motion command. -/
def motionVecs : List Vec := [.jointPos, .jointVel, .bodyPosW, .bodyQuatW]

/-- The computation returns exactly when it is `safe`, and runs out of a
vector of the motion command otherwise. -/
def Verdict {α : Type} (safe : Prop) (x : Except Fault α) : Prop :=
  (safe ∧ ∃ a, x = .ok a)
    ∨ (¬ safe ∧ ∃ v ∈ motionVecs, x = .error (.index v))

/-- A model that answers `r`. -/
def answering (obsSize : Nat) (r : InferenceResult F) : Policy F where
  obsSize := obsSize
  infer _ _ := .ok r

/-- A run in which each event comes with what the model answers, should
the callback ask it. -/
def runAnswers (obsSize : Nat) (n : RLControllerNode F D)
    (evs : List (Event D × InferenceResult F)) :
    Logged (Act F D) Fault (RLControllerNode F D) :=
  Logged.run (fun n e => step (answering obsSize e.2) n e.1) n evs

/-- The number of ready timer events. -/
def readyCount (evs : List (Event D × InferenceResult F)) : Nat :=
  (seen (evs.map Prod.fst)).ready

/-- The state after the events `evs`, with outputs as `o` says: a motion
command from the initialisation on, when the motion is present. -/
structure Loaded (base : DataConverter F) (o : Outputs) (s m : Int)
    (evs : List (Event D × InferenceResult F))
    (n : RLControllerNode F D) : Prop where
  track : Track s m (evs.map Prod.fst) n
  setup : n.converter.SameSetup base
  last : n.converter.lastAction.length = base.numDof
  empty : n.converter.command.empty
    = (decide (readyCount evs = 0) || !o.present base.numDof)
  filled : n.converter.command.empty = false →
    o.Fills base.numDof base.cfg.numBodies n.converter.command

variable {s m : Int} {evs : List (Event D × InferenceResult F)}
  {n n' : RLControllerNode F D} {obsSize : Nat}

omit [Scalar F D] [Eigen F] in
/-- A tick's or the dry run's motion, filled: the new command is too. -/
theorem filled_updateMotion
    (hempty : dc.command.empty
      = (decide (readyCount evs = 0) || !o.present base.numDof))
    (hfilled : dc.command.empty = false →
      o.Fills base.numDof base.cfg.numBodies dc.command)
    (hr : o.Fills base.numDof base.cfg.numBodies r.motion) :
    (updateMotion dc r).command.empty = !o.present base.numDof
      ∧ ((updateMotion dc r).command.empty = false →
        o.Fills base.numDof base.cfg.numBodies
          (updateMotion dc r).command) := by
  have he := hr.empty_eq
  rw [updateMotion_eq]
  show (if r.motion.empty = true then dc.command else r.motion).empty
      = !o.present base.numDof
    ∧ ((if r.motion.empty = true then dc.command else r.motion).empty
        = false → o.Fills base.numDof base.cfg.numBodies
          (if r.motion.empty = true then dc.command else r.motion))
  split
  next hmot =>
    rw [he] at hmot
    refine ⟨?_, hfilled⟩
    rw [hempty, hmot, Bool.or_true]
  next hmot => exact ⟨he, fun _ => hr⟩

omit [Scalar F D] [Eigen F] in
theorem readyCount_snoc (evs : List (Event D × InferenceResult F))
    (e : Event D × InferenceResult F) :
    readyCount (evs ++ [e])
      = ((seen (evs.map Prod.fst)).next e.1).ready := by
  unfold readyCount
  rw [List.map_append, List.map_singleton, seen_snoc]

omit [Scalar F D] [Eigen F] in
theorem readyCount_le (evs : List (Event D × InferenceResult F))
    (e : Event D × InferenceResult F) :
    readyCount evs ≤ readyCount (evs ++ [e]) := by
  unfold readyCount
  rw [List.map_append]
  exact (seen_mono _ _).1

omit [Scalar F D] [Eigen F] in
/-- Ready timer events count. -/
theorem Loaded.readyCount_timer (h : Loaded base o s m evs n)
    {e : Event D × InferenceResult F} (he : e.1 = .timer) :
    readyCount (evs ++ [e]) = readyCount evs
      + if n.jointReceived && n.imuReceived then 1 else 0 := by
  rw [readyCount_snoc, he, Seen.next_timer, h.track.both]
  split <;> rfl

/-- A callback that leaves the converter as it is. -/
theorem Loaded.quiet (h : Loaded base o s m evs n)
    {e : Event D × InferenceResult F}
    (hs : (step (answering obsSize e.2) n e.1).out = .ok n')
    (hc : n'.converter = n.converter)
    (hr : readyCount (evs ++ [e]) = 0 ↔ readyCount evs = 0) :
    Loaded base o s m (evs ++ [e]) n' := by
  refine ⟨?_, ?_, ?_, ?_, ?_⟩
  · rw [List.map_append, List.map_singleton]
    exact h.track.step hs
  · rw [hc]
    exact h.setup
  · rw [hc]
    exact h.last
  · rw [hc, decide_eq_decide.mpr hr]
    exact h.empty
  · rw [hc]
    exact h.filled

/-- A callback that takes the motion and the action of a result. -/
theorem Loaded.updated (h : Loaded base o s m evs n)
    {e : Event D × InferenceResult F}
    (hs : (step (answering obsSize e.2) n e.1).out = .ok n')
    {dc₁ dc₂ : DataConverter F} {scaled : List F}
    {a : TransformAlignment F}
    (hdc₁ : dc₁ = { updateMotion n.converter e.2 with initAlign := a })
    (hp : dc₁.processAction e.2.actions = .ok (dc₂, scaled))
    (hc : n'.converter = dc₂)
    (hr : readyCount (evs ++ [e]) ≠ 0)
    (hfill : o.Fills base.numDof base.cfg.numBodies e.2.motion) :
    Loaded base o s m (evs ++ [e]) n' := by
  obtain ⟨hempty, hfilled⟩ := filled_updateMotion h.empty h.filled hfill
  obtain ⟨hdc₂, -, hlen⟩ := DataConverter.processAction_ok hp
  have hset := (step_setup hs).trans h.setup
  rw [← hc] at hdc₂
  refine ⟨?_, hset, ?_, ?_, ?_⟩
  · rw [List.map_append, List.map_singleton]
    exact h.track.step hs
  · have hn : dc₁.numDof = base.numDof := by
      rw [← hset.numDof, hdc₂]
      rfl
    rw [hdc₂, ← hn]
    exact hlen
  · rw [hdc₂, hdc₁, decide_eq_false hr, Bool.false_or]
    exact hempty
  · rw [hdc₂, hdc₁]
    exact hfilled

/-- A callback that returns keeps `Loaded`. -/
theorem Loaded.step (h : Loaded base o s m evs n)
    {e : Event D × InferenceResult F}
    (hfill : o.Fills base.numDof base.cfg.numBodies e.2.motion)
    (hs : (RLControllerNode.step (answering obsSize e.2) n e.1).out
      = .ok n') :
    Loaded base o s m (evs ++ [e]) n' := by
  have hsnoc := readyCount_snoc evs e
  have htimer := h.readyCount_timer (e := e)
  obtain ⟨ev, r⟩ := e
  cases ev with
  | jointState msg =>
      refine h.quiet hs ?_ (by rw [hsnoc]; rfl)
      cases hs
      rfl
  | imu msg =>
      refine h.quiet hs ?_ (by rw [hsnoc]; rfl)
      cases hs
      rfl
  | timer =>
      specialize htimer rfl
      have ht := timerStep_of_ok hs
      generalize (n.timerCallback _).log = l at ht
      have hinit := h.track.initialized
      cases ht with
      | waiting hw =>
          apply h.quiet hs rfl
          rw [htimer, hw]
          simp
      | init hw hi hr hm hp =>
          cases hr
          obtain ⟨a, hdc₁⟩ := initMotion_ok hm
          refine h.updated hs hdc₁ hp rfl ?_ hfill
          rw [htimer, hw]
          simp
      | done hw hi hd =>
          apply h.quiet hs rfl
          rw [hi] at hinit
          have : 0 < readyCount evs := of_decide_eq_true hinit.symm
          rw [htimer, hw]
          simp
          omega
      | tick hw hi hd ho hr hp ht =>
          cases hr
          refine h.updated hs rfl hp (advance_converter _) ?_ hfill
          rw [htimer, hw]
          simp

/-- The dry run returns exactly when the flags are `initSafe`. -/
theorem init_verdict (hb : base.Ready) (h : Loaded base o s m evs n)
    (hw : (n.jointReceived && n.imuReceived) = true)
    (hi : n.initialized = false)
    (hact : r.actions.length = base.numDof)
    (hfill : o.Fills base.numDof base.cfg.numBodies r.motion) :
    Verdict ((!o.present base.numDof
        || o.initSafe base.cfg.numBodies) = true)
      (n.timerCallback (answering obsSize r)).out := by
  have hiff := initMotion_isOk_iff hb h.setup hfill
  have hr : (answering obsSize r).infer
      (List.replicate (answering obsSize r).obsSize 0) n.timestep
      = .ok r := rfl
  cases hm : initMotion n.converter r with
  | error f =>
      right
      refine ⟨fun hsafe => ?_, ?_⟩
      · obtain ⟨dc₁, hok⟩ := hiff.mpr hsafe
        rw [hm] at hok
        cases hok
      · rw [(TimerStop.initMotion hw hi hr hm).timerCallback]
        rcases initMotion_error hm with rfl | rfl
        · exact ⟨_, by simp [motionVecs], rfl⟩
        · exact ⟨_, by simp [motionVecs], rfl⟩
  | ok dc₁ =>
      left
      have hset := (setup_initMotion hm).trans h.setup
      have hlast : dc₁.lastAction.length = base.numDof := by
        obtain ⟨a, rfl⟩ := initMotion_ok hm
        rw [updateMotion_eq]
        exact h.last
      obtain ⟨⟨dc₂, scaled⟩, hp⟩ :=
        DataConverter.processAction_isOk_iff.mpr
          ⟨show dc₁.numDof ≤ dc₁.lastAction.length by
            rw [hset.numDof, hlast],
          show dc₁.numDof ≤ r.actions.length by
            rw [hset.numDof, hact],
          (hset.ready hb).scales⟩
      refine ⟨hiff.mp ⟨dc₁, hm⟩, ?_⟩
      rw [(TimerStep.init hw hi hr hm hp).timerCallback]
      exact ⟨_, rfl⟩

/-- A tick returns exactly when the flags are `tickSafe`. -/
theorem tick_verdict (hb : base.Ready) (h : Loaded base o s m evs n)
    (hw : (n.jointReceived && n.imuReceived) = true)
    (hi : n.initialized = true) (hd : n.flagMotionDone = false)
    (hact : r.actions.length = base.numDof)
    (hfill : o.Fills base.numDof base.cfg.numBodies r.motion) :
    Verdict ((!o.present base.numDof
        || o.tickSafe base.cfg.numBodies) = true)
      (n.timerCallback (answering obsSize r)).out := by
  have hpos : readyCount evs ≠ 0 := (h.track.ready_pos hi).ne'
  have hempty : n.converter.command.empty = !o.present base.numDof := by
    rw [h.empty, decide_eq_false hpos, Bool.false_or]
  have hiff := DataConverter.observable_iff_safe hb h.setup h.last hempty
    h.filled
  cases ho : n.converter.buildObservation
      n.latestImu.angularVelocity.narrow n.latestImu.orientation.narrow
      n.latestJointState.name n.latestJointState.position
      n.latestJointState.velocity with
  | error f =>
      right
      refine ⟨fun hsafe => ?_, ?_⟩
      · obtain ⟨_, hok⟩ := DataConverter.buildObservation_isOk_iff.mpr
          (hiff.mpr hsafe)
        rw [ho] at hok
        cases hok
      · rw [(TimerStop.observe hw hi hd ho).timerCallback]
        have hready := h.setup.ready hb
        have herr := DataConverter.buildObservation_error hready.tarLen
          hready.default (by rw [h.setup.numDof, h.last]) ho
        rcases herr with rfl | rfl | rfl | rfl
        · exact ⟨_, by simp [motionVecs], rfl⟩
        · exact ⟨_, by simp [motionVecs], rfl⟩
        · exact ⟨_, by simp [motionVecs], rfl⟩
        · exact ⟨_, by simp [motionVecs], rfl⟩
  | ok obs =>
      left
      have hsafe := hiff.mp
        (DataConverter.buildObservation_isOk_iff.mp ⟨obs, ho⟩)
      have hr : (answering obsSize r).infer obs n.timestep = .ok r := rfl
      have hset := (setup_updateMotion n.converter r).trans h.setup
      obtain ⟨hempty₁, hfilled₁⟩ :=
        filled_updateMotion h.empty h.filled hfill
      obtain ⟨⟨dc₂, scaled⟩, hp⟩ :=
        DataConverter.processAction_isOk_iff.mpr
          ⟨show (updateMotion n.converter r).numDof
              ≤ (updateMotion n.converter r).lastAction.length by
            rw [hset.numDof, updateMotion_eq]
            exact h.last.ge,
          show (updateMotion n.converter r).numDof ≤ r.actions.length by
            rw [hset.numDof, hact],
          (hset.ready hb).scales⟩
      -- what made the observation readable makes the target readable
      obtain ⟨rfl, rfl, hlen⟩ := DataConverter.processAction_ok hp
      have hobs₂ := (DataConverter.observable_iff_safe hb
        (setup_processAction hp |>.trans hset)
        (by rw [hlen, hset.numDof]) hempty₁ hfilled₁).mpr hsafe
      obtain ⟨hlast, hraw, hscale⟩ :=
        DataConverter.processAction_isOk_iff.mp ⟨_, hp⟩
      have ht := DataConverter.computePdTarget_eq hobs₂.default
        hobs₂.command
        (DataConverter.scaled_length hlast hraw hscale).ge
      refine ⟨hsafe, ?_⟩
      rw [(TimerStep.tick hw hi hd ho hr hp ht).timerCallback]
      exact ⟨_, rfl⟩

/-- A timer event from a tolerated history: the callback returns, or it
runs out of a motion vector and the history is tolerated no more. -/
theorem timer_verdict (hb : base.Ready) (h : Loaded base o s m evs n)
    (hgood : o.tolerated base.numDof base.cfg.numBodies (readyCount evs)
      = true)
    (hact : r.actions.length = base.numDof)
    (hfill : o.Fills base.numDof base.cfg.numBodies r.motion) :
    Verdict (o.tolerated base.numDof base.cfg.numBodies
        (readyCount (evs ++ [(.timer, r)])) = true)
      (n.timerCallback (answering obsSize r)).out := by
  rw [h.readyCount_timer rfl]
  cases hw : n.jointReceived && n.imuReceived with
  | false =>
      left
      rw [(TimerStep.waiting hw).timerCallback]
      exact ⟨hgood, n, rfl⟩
  | true =>
    rw [if_pos rfl]
    cases hi : n.initialized with
    | false =>
        have hzero : readyCount evs = 0 := h.track.ready_zero hi
        rw [hzero, Nat.zero_add, Outputs.tolerated_one]
        exact init_verdict hb h hw hi hact hfill
    | true =>
      have hpos : 0 < readyCount evs := h.track.ready_pos hi
      rw [Outputs.tolerated_succ hpos]
      cases hd : n.flagMotionDone with
      | true =>
          -- the end comes after a tick, and that tick was tolerated
          left
          have hge : 1 < readyCount evs := by
            by_contra hle
            have hrun := motionDone_of_le_one (s := s) (m := m)
              (Nat.not_lt.mp hle)
            exact absurd (h.track.flagMotionDone.trans hrun)
              (by rw [hd]; simp)
          rw [(TimerStep.done hw hi hd).timerCallback]
          refine ⟨?_, n, rfl⟩
          obtain ⟨k, hk⟩ : ∃ k, readyCount evs = k + 1 :=
            ⟨_, (Nat.succ_pred_eq_of_pos hpos).symm⟩
          rw [hk, Outputs.tolerated_succ (by omega)] at hgood
          exact hgood
      | false => exact tick_verdict hb h hw hi hd hact hfill

/-- One event from a tolerated history. -/
theorem step_verdict (obsSize : Nat) (hb : base.Ready)
    (h : Loaded base o s m evs n)
    (hgood : o.tolerated base.numDof base.cfg.numBodies (readyCount evs)
      = true)
    {e : Event D × InferenceResult F}
    (hact : e.2.actions.length = base.numDof)
    (hfill : o.Fills base.numDof base.cfg.numBodies e.2.motion) :
    (o.tolerated base.numDof base.cfg.numBodies
          (readyCount (evs ++ [e])) = true
        ∧ ∃ n', (step (answering obsSize e.2) n e.1).out = .ok n'
          ∧ Loaded base o s m (evs ++ [e]) n')
      ∨ (¬ o.tolerated base.numDof base.cfg.numBodies
          (readyCount (evs ++ [e])) = true
        ∧ ∃ f, (step (answering obsSize e.2) n e.1).out = .error f
          ∧ ∃ v ∈ motionVecs, f = .index v) := by
  have hs : Verdict (o.tolerated base.numDof base.cfg.numBodies
      (readyCount (evs ++ [e])) = true)
      (step (answering obsSize e.2) n e.1).out := by
    have hsnoc := readyCount_snoc evs e
    obtain ⟨ev, r⟩ := e
    cases ev with
    | jointState msg =>
        left
        rw [hsnoc]
        exact ⟨hgood, _, rfl⟩
    | imu msg =>
        left
        rw [hsnoc]
        exact ⟨hgood, _, rfl⟩
    | timer => exact timer_verdict hb h hgood hact hfill
  rcases hs with ⟨hg, n', hok⟩ | ⟨hg, v, hv, herr⟩
  · exact Or.inl ⟨hg, n', hok, h.step hfill hok⟩
  · exact Or.inr ⟨hg, _, herr, v, hv, rfl⟩

/-- The runs whose motion vectors are never read past their end: exactly
those whose outputs are tolerated. -/
theorem absent_outputs_iff {cfg : BeyondMimicConfig F}
    (hrobot : cfg.robotJointNames ≠ []) (hsized : cfg.Sized)
    (hevs : ∀ e ∈ evs, e.2.actions.length = cfg.numDof
      ∧ o.Fills cfg.numDof cfg.numBodies e.2.motion)
    (obsSize : Nat) (s m : Int) :
    (∀ v ∈ motionVecs,
        (runAnswers obsSize (start cfg s m) evs).out ≠ .error (.index v))
      ↔ o.tolerated cfg.numDof cfg.numBodies
        (seen (evs.map Prod.fst)).ready = true := by
  let base := DataConverter.init.configure cfg
  have hb : base.Ready :=
    DataConverter.configure_ready DataConverter.init
      (hsized.runnable (Or.inr hrobot))
  have hn : base.numDof = cfg.numDof := DataConverter.configure_numDof ..
  have hnb : base.cfg.numBodies = cfg.numBodies :=
    DataConverter.configure_numBodies ..
  rw [← hn, ← hnb] at hevs ⊢
  have hinit : Loaded (D := D) base o s m [] (start cfg s m) := by
    have hs := DataConverter.configure_sound cfg
    have hempty : (start (D := D) cfg s m).converter.command.empty
        = true := by
      show (DataConverter.init.configure cfg).command.empty = true
      rw [DataConverter.configure_command]
      rfl
    refine ⟨track_start cfg, hs.setup, hs.last, ?_, ?_⟩
    · rw [hempty]
      rfl
    · intro hne
      rw [hempty] at hne
      cases hne
  obtain ⟨hok, herr⟩ := Logged.run_verdict
    (fun (n : RLControllerNode F D) e =>
      step (answering obsSize e.2) n e.1)
    (Loaded base o s m)
    (fun es => o.tolerated base.numDof base.cfg.numBodies (readyCount es)
      = true)
    (fun f : Fault => ∃ v ∈ motionVecs, f = .index v)
    (fun e => e.2.actions.length = base.numDof
      ∧ o.Fills base.numDof base.cfg.numBodies e.2.motion)
    hinit (by unfold Outputs.tolerated readyCount; simp [seen])
    (fun es e h => by
      have hle := readyCount_le es e
      exact Outputs.tolerated_mono hle h)
    (fun es e n h hg he => step_verdict obsSize hb h hg he.1 he.2)
    evs hevs
  constructor
  · intro hno
    by_contra hnot
    obtain ⟨f, hf, v, hv, rfl⟩ := herr hnot
    exact hno v hv hf
  · intro hgood v _ hf
    obtain ⟨n, hn', -⟩ := hok hgood
    have : (runAnswers obsSize (start cfg s m) evs).out = .ok n := hn'
    rw [this] at hf
    cases hf

-- ============================================================ instances

/-- `twoReady`, with the result `r` throughout. -/
def twoTimers (r : InferenceResult ℚ) :
    List (Event ℚ × InferenceResult ℚ) :=
  twoReady.map fun e => (e, r)

theorem mem_twoTimers {r : InferenceResult ℚ}
    {e : Event ℚ × InferenceResult ℚ} (he : e ∈ twoTimers r) :
    e.2 = r := by
  obtain ⟨_, -, rfl⟩ := List.mem_map.mp he
  rfl

/-- A result of a model with two outputs, actions and joint positions. -/
def posOnlyResult : InferenceResult ℚ where
  actions := [0, 0]
  jointPos := [1, 2]

theorem absent_outputs_full :
    Outputs.tolerated ⟨true, true, true, true⟩
        DataConverter.crossed.numDof DataConverter.crossed.numBodies
        (seen ((twoTimers fullResult).map Prod.fst)).ready = true
      ∧ ∀ v ∈ motionVecs,
        (runAnswers 19 (start DataConverter.crossed 0 (-1))
          (twoTimers fullResult)).out ≠ .error (.index v) := by
  have htol : Outputs.tolerated ⟨true, true, true, true⟩
      DataConverter.crossed.numDof DataConverter.crossed.numBodies
      (seen ((twoTimers fullResult).map Prod.fst)).ready = true := by
    decide
  refine ⟨htol, ?_⟩
  apply (absent_outputs_iff _ DataConverter.crossed_sized _ 19 0 (-1)).mpr
    htol
  · simp [DataConverter.crossed]
  · intro e he
    rw [mem_twoTimers he]
    exact ⟨rfl, rfl, rfl, rfl, rfl⟩

/-- A model without the velocity output passes the dry run and runs out
of `joint_vel` in its first tick. -/
theorem velocity_absent :
    (∀ e ∈ twoTimers posOnlyResult,
        e.2.actions.length = DataConverter.crossed.numDof
          ∧ Outputs.Fills ⟨true, false, false, false⟩
            DataConverter.crossed.numDof DataConverter.crossed.numBodies
            e.2.motion)
      ∧ (runAnswers 19 (start DataConverter.crossed 0 (-1))
          (twoTimers posOnlyResult)).out = .error (.index .jointVel) := by
  refine ⟨?_, ?_⟩
  · intro e he
    rw [mem_twoTimers he]
    exact ⟨rfl, rfl, rfl, rfl, rfl⟩
  · rfl

end RLControllerNode

end RlDeploy
