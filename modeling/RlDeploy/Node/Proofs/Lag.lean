/-
The callback-driven node computes the sequential program.

# The simulation

`Sim` relates a node to a history: the flags say what is there, the
timestep counts the results, and the converter is the one the history
determines (`Sequential.converter`). Without a last timestep the motion
is never done, so each event takes related states to related states with
equal logs (`Sim.step`), and by the simulation rule of `Logged` so does
each run (`sim_run`).

# What it says of the node's own log

The history is no hidden state: its results are the model's answers to
the calls in the log (`answers`), and its messages the last ones of the
events. `TickLag` states the whole without it.
-/
import RlDeploy.Node.Proofs.Steady

namespace RlDeploy

open Lib

variable {F D : Type} [Scalar F D] [Eigen F]

-- ================================ the converter, one result at a time

namespace Sequential

variable {cfg : BeyondMimicConfig F} {rs : List (InferenceResult F)}
  {r : InferenceResult F}

omit [Scalar F D] [Eigen F] in
theorem motionCommand_snoc (rs : List (InferenceResult F))
    (r : InferenceResult F) :
    motionCommand (rs ++ [r])
      = if r.motion.empty then motionCommand rs else r.motion := by
  unfold motionCommand
  rw [List.map_append, List.filter_append]
  cases he : r.motion.empty with
  | true => simp [he]
  | false => simp [he]

omit [Eigen F] in
theorem smoothedAction_snoc (cfg : BeyondMimicConfig F)
    (rs : List (InferenceResult F)) (r : InferenceResult F) :
    smoothedAction cfg (rs ++ [r])
      = List.zipWith
          (fun l a => (1 - cfg.actionBeta) * l + cfg.actionBeta * a)
          (smoothedAction cfg rs) r.actions := by
  unfold smoothedAction
  rw [List.foldl_append]
  rfl

/-- Before the first result the converter is as configured. -/
theorem converter_nil (cfg : BeyondMimicConfig F) :
    converter cfg [] = DataConverter.init.configure cfg := by
  have hlast := DataConverter.configure_lastAction DataConverter.init cfg
  have hcmd := DataConverter.configure_command DataConverter.init cfg
  have hali : (DataConverter.init.configure cfg).initAlign
      = TransformAlignment.init := by
    unfold DataConverter.configure
    dsimp only
    split <;> rfl
  unfold converter motionCommand smoothedAction alignment
  simp only [List.map_nil, List.filter_nil, List.getLast?_nil,
    Option.getD_none, List.foldl_nil]
  rw [← hlast, ← hali]
  have : ({} : MotionCommand F)
      = (DataConverter.init.configure cfg).command := by
    rw [hcmd]
    rfl
  rw [this]

omit [Eigen F] in
/-- Smoothing with the first entries of both vectors is smoothing. -/
theorem smoothed_eq {dc : DataConverter F} (hl : dc.lastAction.length
    = dc.numDof) (raw : List F) :
    dc.smoothed raw = List.zipWith
      (fun l a => (1 - dc.cfg.actionBeta) * l + dc.cfg.actionBeta * a)
      dc.lastAction raw := by
  unfold DataConverter.smoothed
  rw [← List.take_zipWith]
  apply List.take_of_length_le
  rw [List.length_zipWith, hl]
  exact min_le_left ..

/-- The history does not touch what `configure` set up. -/
theorem setup_converter (cfg : BeyondMimicConfig F)
    (rs : List (InferenceResult F)) (r : InferenceResult F) :
    (RLControllerNode.updateMotion (converter cfg rs) r).SameSetup
      (DataConverter.init.configure cfg) :=
  (RLControllerNode.setup_updateMotion _ _).trans
    ((DataConverter.SameSetup.refl _).members ..)

/-- The converter after one more result: its motion, unless empty, and
its action smoothed into the last one. -/
theorem converter_next
    (hlast : (smoothedAction cfg rs).length = cfg.numDof) :
    { RLControllerNode.updateMotion (converter cfg rs) r with
        lastAction := (RLControllerNode.updateMotion (converter cfg rs)
          r).smoothed r.actions
        initAlign := alignment cfg (rs ++ [r]) }
      = converter cfg (rs ++ [r]) := by
  have hset := setup_converter cfg rs r
  obtain ⟨k, hk⟩ := hset.config
  have hn := hset.joints
  have hbeta : (RLControllerNode.updateMotion (converter cfg rs)
      r).cfg.actionBeta = cfg.actionBeta := by rw [hk]
  have hup := RLControllerNode.updateMotion_eq (converter cfg rs) r
  have hl : (RLControllerNode.updateMotion (converter cfg rs) r).lastAction
      = smoothedAction cfg rs := by
    rw [hup]
    rfl
  rw [smoothed_eq (by rw [hl, hlast, hn]), hl, hbeta,
    ← smoothedAction_snoc, hup]
  show _ = { DataConverter.init.configure cfg with
    command := motionCommand (rs ++ [r])
    lastAction := smoothedAction cfg (rs ++ [r])
    initAlign := alignment cfg (rs ++ [r]) }
  rw [motionCommand_snoc]
  rfl

/-- The same, where the last action has the right size. -/
theorem converter_snoc
    (hs : DataConverter.Sound (DataConverter.init.configure cfg)
      (converter cfg rs)) :
    converter cfg (rs ++ [r])
      = { RLControllerNode.updateMotion (converter cfg rs) r with
          lastAction := (converter cfg rs).smoothed r.actions
          initAlign := alignment cfg (rs ++ [r]) } := by
  have hlast : (smoothedAction cfg rs).length = cfg.numDof :=
    hs.last.trans (DataConverter.configure_numDof _ _)
  rw [← converter_next hlast, RLControllerNode.updateMotion_eq]
  rfl

/-- The alignment is settled by the first result. -/
theorem alignment_snoc (hne : rs ≠ []) :
    alignment cfg (rs ++ [r]) = alignment cfg rs := by
  cases rs with
  | nil => exact absurd rfl hne
  | cons dry rs => rfl

omit [Eigen F] in
/-- The action a converter of `cfg` clips and scales. -/
theorem scaled_eq {dc : DataConverter F} (hsized : cfg.Sized)
    (hset : dc.SameSetup (DataConverter.init.configure cfg))
    (raw : List F) :
    dc.scaled raw = List.zipWith
      (fun a k => clamp a (-cfg.clipActions) cfg.clipActions * k)
      (dc.smoothed raw) cfg.actionScales := by
  obtain ⟨k, hcfg⟩ := hset.config
  unfold DataConverter.scaled
  rw [hset.joints, hcfg]
  show List.zipWith _ _ (cfg.actionScales.take cfg.numDof) = _
  rw [List.take_of_length_le hsized.actionScales.le]

-- --------------------------------------------- the program's timer event

variable {net : Policy F} {s : Int} {h : History F D}
  {js : JointState D} {imu : Imu D}

theorem step_waiting (hw : (h.jointState.isSome && h.imu.isSome) = false) :
    step cfg net s h .timer = ⟨[], .ok h⟩ := by
  unfold step
  cases hj : h.jointState with
  | none => rfl
  | some js =>
      cases hi : h.imu with
      | none => rfl
      | some imu =>
          rw [hj, hi] at hw
          cases hw

theorem step_dry (hj : h.jointState = some js) (hi : h.imu = some imu)
    (hres : h.results = [])
    (hr : net.infer (List.replicate net.obsSize 0) s = .ok r) :
    step cfg net s h .timer
      = ⟨[.infer (List.replicate net.obsSize 0) s, .process r.actions],
          .ok { h with results := [r] }⟩ := by
  unfold step
  simp [hj, hi, hres, hr]

theorem step_tick {obs : List F} {cmd : JointState D}
    (hj : h.jointState = some js) (hi : h.imu = some imu)
    (hres : h.results ≠ [])
    (ho : observation cfg h.results js imu = .ok obs)
    (hr : net.infer obs (s + ((h.results.length - 1 : Nat) : Int)) = .ok r)
    (hc : command cfg (h.results ++ [r]) = .ok cmd) :
    step cfg net s h .timer
      = ⟨[.infer obs (s + ((h.results.length - 1 : Nat) : Int)),
            .process r.actions, .publish cmd],
          .ok { h with results := h.results ++ [r] }⟩ := by
  obtain ⟨hjs, him, results⟩ := h
  cases results with
  | nil => exact absurd rfl hres
  | cons dry rs =>
      have hlen : (dry :: rs).length - 1 = rs.length := rfl
      simp only [hlen, List.cons_append] at hj hi hr ho hc ⊢
      unfold step
      rw [hj, hi]
      simp [ho, hr, hc]

end Sequential

-- ======================================================= the simulation

namespace RLControllerNode

open RlDeploy.Sequential

/-- A node and the history it has seen. -/
structure Sim (cfg : BeyondMimicConfig F) (s m : Int)
    (n : RLControllerNode F D) (h : History F D) : Prop where
  joint : n.jointReceived = h.jointState.isSome
  imu : n.imuReceived = h.imu.isSome
  latestJointState : ∀ msg, h.jointState = some msg →
    n.latestJointState = msg
  latestImu : ∀ msg, h.imu = some msg → n.latestImu = msg
  initialized : n.initialized = !h.results.isEmpty
  timestep : n.timestep = s + ((h.results.length - 1 : Nat) : Int)
  running : n.flagMotionDone = false
  playSpeed : n.playSpeed = 1
  maxTimestep : n.maxTimestep = m
  converter : n.converter = Sequential.converter cfg h.results
  sound : DataConverter.Sound (DataConverter.init.configure cfg)
    n.converter

variable {cfg : BeyondMimicConfig F} {net : Policy F} {s m : Int}
  {n : RLControllerNode F D} {h : History F D}

theorem sim_start (cfg : BeyondMimicConfig F) (s m : Int) :
    Sim (D := D) cfg s m (start cfg s m) {} := by
  refine ⟨rfl, rfl, ?_, ?_, rfl, ?_, rfl, rfl, rfl, ?_, ?_⟩
  · intro msg hm
    cases hm
  · intro msg hm
    cases hm
  · show s = s + ((0 : Nat) : Int)
    omega
  · exact (converter_nil cfg).symm
  · exact DataConverter.configure_sound cfg

omit [Scalar F D] [Eigen F] in
/-- A tick without a last timestep only advances the timestep. -/
theorem advance_running (hm : n.maxTimestep ≤ 0)
    (hp : n.playSpeed = 1) :
    advance n = { n with timestep := n.timestep + 1 } := by
  have ht : truncate n.playSpeed = 1 := by
    rw [hp]
    rfl
  unfold advance
  rw [ht]
  dsimp only
  rw [if_neg (by omega)]

/-- On a converter the history determines, the run invariant holds. -/
theorem Sim.seqSound (hsim : Sim cfg s m n h) :
    DataConverter.Sound (DataConverter.init.configure cfg)
      (Sequential.converter cfg h.results) := by
  rw [← hsim.converter]
  exact hsim.sound

/-- The observation the program builds is the one the node builds. -/
theorem Sim.observation_eq (hsim : Sim cfg s m n h) {js : JointState D}
    {imu : Imu D} (hj : h.jointState = some js) (hi : h.imu = some imu) :
    observation cfg h.results js imu
      = n.converter.buildObservation n.latestImu.angularVelocity.narrow
        n.latestImu.orientation.narrow n.latestJointState.name
        n.latestJointState.position n.latestJointState.velocity := by
  unfold observation
  rw [← hsim.converter, hsim.latestJointState js hj,
    hsim.latestImu imu hi]

/-- The converter after a tick is the one of the longer history. -/
theorem Sim.converter_tick (hsim : Sim cfg s m n h)
    (hres : h.results ≠ []) (r : InferenceResult F) :
    { updateMotion n.converter r with
        lastAction := (updateMotion n.converter r).smoothed r.actions }
      = Sequential.converter cfg (h.results ++ [r]) := by
  rw [converter_snoc hsim.seqSound, alignment_snoc hres,
    hsim.converter, updateMotion_eq]
  rfl

/-- The first ready timer event, on related states. -/
theorem Sim.timer_init (hrobot : cfg.robotJointNames ≠ [])
    (hsized : cfg.Sized)
    (hnet : net.WellSized cfg.numDof cfg.numBodies)
    (hsim : Sim cfg s m n h) {js : JointState D} {imu : Imu D}
    (hj : h.jointState = some js) (hi : h.imu = some imu)
    (hw : (n.jointReceived && n.imuReceived) = true)
    (hd : n.initialized = false) :
    ∃ n' h' l, n.timerCallback net = ⟨l, .ok n'⟩
      ∧ Sequential.step cfg net s h .timer = ⟨l, .ok h'⟩
      ∧ Sim cfg s m n' h' := by
  have hb := DataConverter.configure_ready DataConverter.init
    (hsized.runnable (Or.inr hrobot))
  have hn := DataConverter.configure_numDof DataConverter.init cfg
  have hnb := DataConverter.configure_numBodies DataConverter.init cfg
  have hsound := hsim.sound
  have hseq := hsim.seqSound
  have hinit := hsim.initialized
  have htime := hsim.timestep
  have hres : h.results = [] := by
    rw [hd] at hinit
    simpa using hinit.symm
  rw [hres] at htime hseq
  have ht : n.timestep = s := by simpa using htime
  obtain ⟨r, hr, hact, hmot⟩ := hnet (List.replicate net.obsSize 0) s
  rw [← hn, ← hnb] at hmot
  have hinitMotion := initMotion_eq hb hsound hmot
  have hsound₁ := (sound_updateMotion hsound hmot).withAlign
    (anchorAlignment n.converter.cfg n.converter.initAlign r.motion)
  obtain ⟨hp, hsound₂, -⟩ := hsound₁.processAction hb.scales
    (hact.trans hn.symm)
  have hstep := TimerStep.init hw hd (ht ▸ hr) hinitMotion hp
  refine ⟨_, { h with results := [r] }, _, hstep.timerCallback, ?_, ?_⟩
  · rw [step_dry hj hi hres hr, ht]
  · refine ⟨hsim.joint, hsim.imu, hsim.latestJointState,
      hsim.latestImu, rfl, htime, hsim.running, hsim.playSpeed,
      hsim.maxTimestep, ?_, hsound₂⟩
    have hsnoc := converter_snoc (r := r) hseq
    rw [List.nil_append] at hsnoc
    rw [hsnoc, hsim.converter, hres, updateMotion_eq]
    unfold alignment
    rw [← DataConverter.configure_cfg DataConverter.init cfg]
    rfl

/-- Each later one, without a last timestep, on related states. -/
theorem Sim.timer_tick (hrobot : cfg.robotJointNames ≠ [])
    (hsized : cfg.Sized)
    (hnet : net.WellSized cfg.numDof cfg.numBodies) (hm : m ≤ 0)
    (hsim : Sim cfg s m n h) {js : JointState D} {imu : Imu D}
    (hj : h.jointState = some js) (hi : h.imu = some imu)
    (hw : (n.jointReceived && n.imuReceived) = true)
    (hd : n.initialized = true) :
    ∃ n' h' l, n.timerCallback net = ⟨l, .ok n'⟩
      ∧ Sequential.step cfg net s h .timer = ⟨l, .ok h'⟩
      ∧ Sim cfg s m n' h' := by
  have hb := DataConverter.configure_ready DataConverter.init
    (hsized.runnable (Or.inr hrobot))
  have hn := DataConverter.configure_numDof DataConverter.init cfg
  have hnb := DataConverter.configure_numBodies DataConverter.init cfg
  have hsound := hsim.sound
  have hinit := hsim.initialized
  have htime := hsim.timestep
  have hres : h.results ≠ [] := by
    rw [hd] at hinit
    simpa using hinit.symm
  obtain ⟨anchor, -, ho⟩ := DataConverter.buildObservation_eq
    (hsound.observable hb) n.latestImu.angularVelocity.narrow
    n.latestImu.orientation.narrow n.latestJointState.name
    n.latestJointState.position n.latestJointState.velocity
  generalize n.converter.refPos ++ n.converter.refVel ++ anchor
    ++ _ ++ _ ++ _ ++ _ = obs at ho
  obtain ⟨r, hr, hact, hmot⟩ := hnet obs n.timestep
  rw [← hn, ← hnb] at hmot
  have hsound₁ := sound_updateMotion hsound hmot
  obtain ⟨hp, hsound₂, hlen⟩ := hsound₁.processAction hb.scales
    (hact.trans hn.symm)
  have hconv := hsim.converter_tick hres r
  have hsmooth := congrArg DataConverter.lastAction hconv
  rw [hconv] at hp hsound₂
  obtain ⟨target, htarget⟩ :
      ∃ t, (Sequential.converter cfg (h.results ++ [r])).computePdTarget
        ((updateMotion n.converter r).scaled r.actions) = .ok t :=
    ⟨_, hsound₂.computePdTarget hb.default hlen⟩
  have hstep := TimerStep.tick hw hd hsim.running ho hr hp htarget
  have hscaled : (updateMotion n.converter r).scaled r.actions
      = List.zipWith
          (fun a k => clamp a (-cfg.clipActions) cfg.clipActions * k)
          (smoothedAction cfg (h.results ++ [r]))
          cfg.actionScales := by
    rw [scaled_eq hsized hsound₁.setup]
    exact congrArg (fun xs => List.zipWith _ xs cfg.actionScales)
      hsmooth
  have hobs := (hsim.observation_eq hj hi).trans ho
  have hcmd : command cfg (h.results ++ [r]) = .ok ((
      Sequential.converter cfg
        (h.results ++ [r])).actionToJointCmd target) := by
    unfold command
    rw [← hscaled]
    dsimp only
    rw [htarget]
    rfl
  rw [htime] at hr
  have hadv := advance_running
    (n := { n with
      converter := Sequential.converter cfg (h.results ++ [r]) })
    (hsim.maxTimestep.trans_le hm) hsim.playSpeed
  refine ⟨_, { h with results := h.results ++ [r] }, _,
    hstep.timerCallback, ?_, ?_⟩
  · rw [step_tick hj hi hres hobs hr hcmd, htime]
  · rw [hadv]
    refine ⟨hsim.joint, hsim.imu, hsim.latestJointState,
      hsim.latestImu, ?_, ?_, hsim.running, hsim.playSpeed,
      hsim.maxTimestep, rfl, hsound₂⟩
    · show n.initialized = _
      rw [hd]
      simp
    · have hpos := List.length_pos_iff.mpr hres
      show n.timestep + 1
        = s + (((h.results ++ [r]).length - 1 : Nat) : Int)
      rw [htime, List.length_append]
      simp only [List.length_singleton]
      omega

/-- The timer event, on related states. -/
theorem Sim.timer (hrobot : cfg.robotJointNames ≠ [])
    (hsized : cfg.Sized)
    (hnet : net.WellSized cfg.numDof cfg.numBodies) (hm : m ≤ 0)
    (hsim : Sim cfg s m n h) :
    ∃ n' h' l, n.timerCallback net = ⟨l, .ok n'⟩
      ∧ Sequential.step cfg net s h .timer = ⟨l, .ok h'⟩
      ∧ Sim cfg s m n' h' := by
  have hboth : (n.jointReceived && n.imuReceived)
      = (h.jointState.isSome && h.imu.isSome) := by
    rw [hsim.joint, hsim.imu]
  cases hw : n.jointReceived && n.imuReceived with
  | false =>
      rw [hw] at hboth
      exact ⟨n, h, [], timerCallback_waiting hw, step_waiting hboth.symm,
        hsim⟩
  | true =>
      rw [hw] at hboth
      have hsome := hboth.symm
      rw [Bool.and_eq_true, Option.isSome_iff_exists,
        Option.isSome_iff_exists] at hsome
      obtain ⟨⟨js, hj⟩, imu, hi⟩ := hsome
      cases hd : n.initialized with
      | false => exact hsim.timer_init hrobot hsized hnet hj hi hw hd
      | true => exact hsim.timer_tick hrobot hsized hnet hm hj hi hw hd

/-- One callback, on related states: equal logs, and related states
after it. -/
theorem Sim.step (hrobot : cfg.robotJointNames ≠ [])
    (hsized : cfg.Sized)
    (hnet : net.WellSized cfg.numDof cfg.numBodies) (hm : m ≤ 0)
    (hsim : Sim cfg s m n h) (e : Event D) :
    (RLControllerNode.step net n e).log
        = (Sequential.step cfg net s h e).log
      ∧ ∃ n' h', (RLControllerNode.step net n e).out = .ok n'
        ∧ (Sequential.step cfg net s h e).out = .ok h'
        ∧ Sim cfg s m n' h' := by
  cases e with
  | jointState msg =>
      refine ⟨rfl, _, _, rfl, rfl, rfl, hsim.imu, ?_, hsim.latestImu,
        hsim.initialized, hsim.timestep, hsim.running, hsim.playSpeed,
        hsim.maxTimestep, hsim.converter, hsim.sound⟩
      intro msg' heq
      exact Option.some.inj heq
  | imu msg =>
      refine ⟨rfl, _, _, rfl, rfl, hsim.joint, rfl, hsim.latestJointState,
        ?_, hsim.initialized, hsim.timestep, hsim.running, hsim.playSpeed,
        hsim.maxTimestep, hsim.converter, hsim.sound⟩
      intro msg' heq
      exact Option.some.inj heq
  | timer =>
      obtain ⟨n', h', l, hn, hh, hsim'⟩ :=
        hsim.timer hrobot hsized hnet hm
      have hnode : RLControllerNode.step net n .timer = ⟨l, .ok n'⟩ := hn
      rw [hnode, hh]
      exact ⟨rfl, n', h', rfl, rfl, hsim'⟩

/-- Whole runs: equal logs, no failure, and related states at the end. -/
theorem sim_run (hrobot : cfg.robotJointNames ≠ [])
    (hsized : cfg.Sized)
    (hnet : net.WellSized cfg.numDof cfg.numBodies) (hm : m ≤ 0)
    (evs : List (Event D)) :
    (run net (start cfg s m) evs).log = (Sequential.run cfg net s evs).log
      ∧ ∃ n h, (run net (start cfg s m) evs).out = .ok n
        ∧ (Sequential.run cfg net s evs).out = .ok h
        ∧ Sim cfg s m n h :=
  Logged.run_sim (Sim cfg s m) (fun _ => True)
    (fun _ _ e hsim _ => hsim.step hrobot hsized hnet hm e)
    (sim_start cfg s m) (fun _ _ => trivial)

-- ================================================ read off the log

section Total

variable {f : List F → Int → InferenceResult F} {obsSize : Nat}
  {evs : List (Event D)}

omit [Scalar F D] [Eigen F] in
/-- The inference calls among logged actions. -/
def asked (log : List (Act F D)) : List (List F × Int) :=
  log.filterMap fun
    | .infer obs t => some (obs, t)
    | _ => none

omit [Scalar F D] [Eigen F] in
/-- The model's answers to these calls, in order. -/
def answers (f : List F → Int → InferenceResult F)
    (log : List (Act F D)) : List (InferenceResult F) :=
  (asked log).map fun q => f q.1 q.2

omit [Scalar F D] [Eigen F] in
theorem asked_append (l l' : List (Act F D)) :
    asked (l ++ l') = asked l ++ asked l' := List.filterMap_append ..

omit [Scalar F D] [Eigen F] in
theorem answers_append (l l' : List (Act F D)) :
    answers f (l ++ l') = answers f l ++ answers f l' := by
  unfold answers
  rw [asked_append, List.map_append]

omit [Scalar F D] [Eigen F] in
theorem published_append (l l' : List (Act F D)) :
    published (l ++ l') = published l ++ published l' :=
  List.filterMap_append ..

/-- Every way the program's timer event returns, when the model is a
function: the log, and the history after it. -/
inductive SeqTimer (cfg : BeyondMimicConfig F)
    (f : List F → Int → InferenceResult F) (obsSize : Nat) (s : Int)
    (h : History F D) : List (Act F D) → History F D → Prop
  | waiting (hw : (h.jointState.isSome && h.imu.isSome) = false) :
      SeqTimer cfg f obsSize s h [] h
  | dry (hw : (h.jointState.isSome && h.imu.isSome) = true)
      (hnil : h.results = []) :
      SeqTimer cfg f obsSize s h
        [.infer (List.replicate obsSize 0) s,
          .process (f (List.replicate obsSize 0) s).actions]
        { h with results := [f (List.replicate obsSize 0) s] }
  | tick {js : JointState D} {imu : Imu D} {obs : List F}
      {cmd : JointState D} {t : Int}
      (hj : h.jointState = some js) (hi : h.imu = some imu)
      (hne : h.results ≠ [])
      (ht : t = s + ((h.results.length - 1 : Nat) : Int))
      (ho : observation cfg h.results js imu = .ok obs)
      (hc : command cfg (h.results ++ [f obs t]) = .ok cmd) :
      SeqTimer cfg f obsSize s h
        [.infer obs t, .process (f obs t).actions, .publish cmd]
        { h with results := h.results ++ [f obs t] }

/-- The program's timer event returns in one of these ways, and in no
other. -/
theorem seqTimer_of_ok {h h' : History F D}
    (hok : (Sequential.step cfg (Policy.ofFun obsSize f) s h .timer).out
      = .ok h') :
    SeqTimer cfg f obsSize s h
      (Sequential.step cfg (Policy.ofFun obsSize f) s h .timer).log
      h' := by
  cases hw : h.jointState.isSome && h.imu.isSome with
  | false =>
      rw [step_waiting hw] at hok ⊢
      cases hok
      exact .waiting hw
  | true =>
    have hsome := hw
    rw [Bool.and_eq_true, Option.isSome_iff_exists,
      Option.isSome_iff_exists] at hsome
    obtain ⟨⟨js, hj⟩, imu, hi⟩ := hsome
    by_cases hres : h.results = []
    case pos =>
      rw [step_dry hj hi hres rfl] at hok ⊢
      cases hok
      exact .dry hw hres
    obtain ⟨dry, rs, hcons⟩ := List.exists_cons_of_ne_nil hres
    cases ho : observation cfg h.results js imu with
    | error e =>
        unfold Sequential.step at hok
        rw [hcons] at ho
        simp [hj, hi, hcons, ho] at hok
    | ok obs =>
        let t := s + ((h.results.length - 1 : Nat) : Int)
        cases hc : command cfg (h.results ++ [f obs t]) with
        | error e =>
            have hlen : (dry :: rs).length - 1 = rs.length := rfl
            unfold Sequential.step at hok
            simp only [t, hcons, hlen, List.cons_append] at ho hc
            simp [hj, hi, hcons, ho, Policy.ofFun, hc] at hok
        | ok cmd =>
            rw [step_tick hj hi hres ho rfl hc] at hok ⊢
            cases hok
            exact .tick hj hi hres rfl ho hc

/-- The history after a run of the program, read off the events and the
log. -/
structure ReadOff (f : List F → Int → InferenceResult F) (obsSize : Nat)
    (s : Int) (evs : List (Event D)) (log : List (Act F D))
    (h : History F D) : Prop where
  jointState : h.jointState = (seen evs).jointState
  imu : h.imu = (seen evs).imu
  count : h.results.length = (seen evs).ready
  results : h.results = answers f log
  commands : (published log).length = (seen evs).ready - 1

variable {log l : List (Act F D)} {h h' : History F D}

omit [Scalar F D] [Eigen F] in
/-- A callback that asks nothing. -/
theorem ReadOff.quiet (hread : ReadOff f obsSize s evs log h)
    {evs' : List (Event D)} (hj : h'.jointState = (seen evs').jointState)
    (hi : h'.imu = (seen evs').imu)
    (hready : (seen evs').ready = (seen evs).ready)
    (hres : h'.results = h.results) :
    ReadOff f obsSize s evs' (log ++ []) h' := by
  rw [List.append_nil]
  refine ⟨hj, hi, ?_, ?_, ?_⟩
  · rw [hres, hready]
    exact hread.count
  · rw [hres]
    exact hread.results
  · rw [hready]
    exact hread.commands

/-- A timer event of the program keeps `ReadOff`. -/
theorem ReadOff.timer (hread : ReadOff f obsSize s evs log h)
    (ht : SeqTimer cfg f obsSize s h l h') :
    ReadOff f obsSize s (evs ++ [.timer]) (log ++ l) h' := by
  have hjs := hread.jointState
  have him := hread.imu
  have hcount := hread.count
  have hres := hread.results
  have hcmds := hread.commands
  have hboth : (seen evs).both
      = (h.jointState.isSome && h.imu.isSome) := by
    unfold Seen.both
    rw [hjs, him]
  have hready : (h.jointState.isSome && h.imu.isSome) = true →
      seen (evs ++ [.timer])
        = { seen evs with ready := (seen evs).ready + 1 } := by
    intro hw
    rw [seen_snoc, Seen.next_timer, hboth, if_pos hw]
  cases ht with
  | waiting hw =>
      have hsame : seen (evs ++ [.timer]) = seen evs := by
        rw [seen_snoc, Seen.next_timer, hboth, hw]
        rfl
      apply hread.quiet
      · rw [hsame, hjs]
      · rw [hsame, him]
      · rw [hsame]
      · rfl
  | dry hw hnil =>
      have hzero : (seen evs).ready = 0 := by
        rw [← hcount, hnil]
        rfl
      rw [hzero] at hcmds
      refine ⟨?_, ?_, ?_, ?_, ?_⟩
      · rw [hready hw, hjs]
      · rw [hready hw, him]
      · rw [hready hw, hzero]
        rfl
      · rw [answers_append, ← hres, hnil]
        rfl
      · rw [hready hw, published_append, List.length_append, hcmds,
          hzero]
        rfl
  | @tick js imu _ _ _ hj hi hne =>
      have hw : (h.jointState.isSome && h.imu.isSome) = true := by
        rw [hj, hi]
        rfl
      have hpos : 0 < (seen evs).ready := by
        rw [← hcount]
        exact List.length_pos_iff.mpr hne
      refine ⟨?_, ?_, ?_, ?_, ?_⟩
      · rw [hready hw, ← hjs]
      · rw [hready hw, ← him]
      · rw [hready hw, List.length_append, hcount]
        rfl
      · rw [answers_append, ← hres]
        rfl
      · rw [hready hw, published_append, List.length_append, hcmds]
        show (seen evs).ready - 1 + 1 = (seen evs).ready + 1 - 1
        omega

/-- One event of the program keeps `ReadOff`. -/
theorem ReadOff.step (hread : ReadOff f obsSize s evs log h)
    {e : Event D}
    (hok : (Sequential.step cfg (Policy.ofFun obsSize f) s h e).out
      = .ok h') :
    ReadOff f obsSize s (evs ++ [e])
      (log ++ (Sequential.step cfg (Policy.ofFun obsSize f) s h e).log)
      h' := by
  have hseen := seen_snoc evs e
  cases e with
  | jointState msg =>
      cases hok
      apply hread.quiet
      · rw [hseen]
        rfl
      · rw [hseen]
        exact hread.imu
      · rw [hseen]
        rfl
      · rfl
  | imu msg =>
      cases hok
      apply hread.quiet
      · rw [hseen]
        exact hread.jointState
      · rw [hseen]
        rfl
      · rw [hseen]
        rfl
      · rfl
  | timer => exact hread.timer (seqTimer_of_ok hok)

theorem readOff_run {evs : List (Event D)} {h : History F D}
    (hok : (Sequential.run cfg (Policy.ofFun obsSize f) s evs).out
      = .ok h) :
    ReadOff f obsSize s evs
      (Sequential.run cfg (Policy.ofFun obsSize f) s evs).log h :=
  Logged.run_past (ReadOff f obsSize s) ⟨rfl, rfl, rfl, rfl, rfl⟩
    (fun _ hread hs => hread.step hs) hok

/-- The run over `evs` and the timer event after it, as the sequential
program has them. -/
structure TickLag (cfg : BeyondMimicConfig F)
    (f : List F → Int → InferenceResult F) (obsSize : Nat) (s m : Int)
    (evs : List (Event D)) : Prop where
  /-- No callback fails. -/
  returns : ∃ n, (run (Policy.ofFun obsSize f) (start cfg s m) evs).out
    = .ok n
  /-- The log is the program's. -/
  refines : (run (Policy.ofFun obsSize f) (start cfg s m) evs).log
    = (Sequential.run cfg (Policy.ofFun obsSize f) s evs).log
  /-- No command before the second ready timer event. -/
  silent : (seen evs).ready ≤ 1 →
    published (run (Policy.ofFun obsSize f) (start cfg s m) evs).log = []
  /-- One inference call for each ready timer event. -/
  calls : (asked (run (Policy.ofFun obsSize f)
    (start cfg s m) evs).log).length = (seen evs).ready
  /-- The first one is the dry run. -/
  dryRun : (seen evs).both = true → (seen evs).ready = 0 →
    logAt (Policy.ofFun obsSize f) (start cfg s m) evs .timer
      = [.infer (List.replicate obsSize 0) s,
        .process (f (List.replicate obsSize 0) s).actions]
  /-- Tick `k`: the observation is built from the answers before it, the
  command from those and its own. -/
  tick : ∀ (k : Nat) (js : JointState D) (imu : Imu D),
    (seen evs).ready = k + 1 →
    (seen evs).jointState = some js → (seen evs).imu = some imu →
    ∃ obs cmd rs,
      rs = answers f (run (Policy.ofFun obsSize f)
        (start cfg s m) evs).log
      ∧ observation cfg rs js imu = .ok obs
      ∧ command cfg (rs ++ [f obs (s + k)]) = .ok cmd
      ∧ logAt (Policy.ofFun obsSize f) (start cfg s m) evs .timer
        = [.infer obs (s + k), .process (f obs (s + k)).actions,
          .publish cmd]

/-- Every run of the node, without a last timestep and with a model that
is a function of its inputs, is the sequential program's. -/
theorem tick_lag (hrobot : cfg.robotJointNames ≠ [])
    (hsized : cfg.Sized)
    (hf : ∀ obs t, (f obs t).WellSized cfg.numDof cfg.numBodies)
    (hm : m ≤ 0) (obsSize : Nat) (s : Int) (evs : List (Event D)) :
    TickLag cfg f obsSize s m evs := by
  have hnet : (Policy.ofFun obsSize f).WellSized cfg.numDof
      cfg.numBodies := fun obs t => ⟨_, rfl, hf obs t⟩
  obtain ⟨hlog, n, h, hn, hh, hsim⟩ :=
    sim_run (s := s) hrobot hsized hnet hm evs
  obtain ⟨hjs, him, hcount, hres, hcmds⟩ := readOff_run hh
  -- the next timer event, on both sides
  obtain ⟨hstep, n', h', -, hh', -⟩ :=
    hsim.step hrobot hsized hnet hm .timer
  have hat : logAt (Policy.ofFun obsSize f) (start cfg s m) evs .timer
      = (Sequential.step cfg (Policy.ofFun obsSize f) s h .timer).log := by
    unfold logAt
    rw [hn]
    exact hstep
  have ht := seqTimer_of_ok hh'
  rw [← hat] at ht
  refine ⟨⟨n, hn⟩, hlog, ?_, ?_, ?_, ?_⟩
  · intro hready
    rw [hlog]
    exact List.length_eq_zero_iff.mp (by omega)
  · rw [hlog, ← hcount, hres]
    exact (List.length_map _).symm
  · intro hboth hzero
    have hnil : h.results = [] := by
      rw [← List.length_eq_zero_iff, hcount]
      exact hzero
    have hw : (h.jointState.isSome && h.imu.isSome) = true := by
      rw [hjs, him]
      exact hboth
    generalize logAt (Policy.ofFun obsSize f) (start cfg s m) evs
      .timer = l at ht ⊢
    cases ht with
    | waiting hno => exact absurd (hno.symm.trans hw) (by simp)
    | dry => rfl
    | tick _ _ hne => exact absurd hnil hne
  · intro k js imu hready hj hi
    have hne : h.results ≠ [] := by
      rw [← List.length_pos_iff, hcount, hready]
      omega
    rw [← hjs] at hj
    rw [← him] at hi
    generalize logAt (Policy.ofFun obsSize f) (start cfg s m) evs
      .timer = l at ht ⊢
    cases ht with
    | waiting hno =>
        rw [hj, hi] at hno
        cases hno
    | dry _ hnil => exact absurd hnil hne
    | @tick js' imu' obs cmd t hj' hi' _ ht ho hc =>
        rw [hj] at hj'
        rw [hi] at hi'
        cases hj'
        cases hi'
        have htk : t = s + (k : Int) := by
          rw [ht, hcount, hready]
          simp
        subst htk
        exact ⟨obs, cmd, h.results, by rw [hlog]; exact hres, ho, hc, rfl⟩

end Total

theorem tick_lag_crossed :
    TickLag (D := ℚ) DataConverter.crossed (fun _ _ => fullResult)
      19 3 (-1) twoReady :=
  tick_lag (by simp [DataConverter.crossed]) DataConverter.crossed_sized
    (fun _ _ => fullResult_wellSized) (by decide) 19 3 twoReady

end RLControllerNode

end RlDeploy
