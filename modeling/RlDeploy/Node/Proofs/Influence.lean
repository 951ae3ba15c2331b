/-
What the model's motion outputs influence.

`use_motion_from_model` is one of the configuration's flags. It is
parsed, stored and printed, and a warning of `initializeMotion` asks
whether it is right, but no callback and no member function of the
converter reads it. So the motion flows into the observations and the
commands whatever its value.

`MotionIgnored` states the absence of that flow as a property of two
runs: two models with equal actions are not told apart. The runs that
have it are those in which no motion ever gets used: without joints a
motion is empty and never stored (`step_congr`), and before the second
ready timer event nothing has been built from it. In every other run the
first observation copies the reference positions of the dry run
(`second_call`), so two constant models that differ in these alone are
told apart.
-/
import RlDeploy.Node.Proofs.Memory
import RlDeploy.Node.Proofs.Silence
import RlDeploy.Converter.Proofs.Layout

namespace RlDeploy

open Lib

variable {F D : Type} [Scalar F D] [Eigen F]

namespace RLControllerNode

open RlDeploy.Sequential

-- ======================================================== the property

omit [Scalar F D] [Eigen F] in
/-- Two models of full-size answers that differ at most in the motion. -/
structure SameActions (n b : Nat)
    (f f' : List F → Int → InferenceResult F) : Prop where
  actions : ∀ obs t, (f obs t).actions = (f' obs t).actions
  left : ∀ obs t, (f obs t).WellSized n b
  right : ∀ obs t, (f' obs t).WellSized n b

/-- No two models that differ in the motion alone are told apart by the
observations and the commands of their runs over `evs`. -/
def MotionIgnored (cfg : BeyondMimicConfig F) (obsSize : Nat) (s m : Int)
    (evs : List (Event D)) : Prop :=
  ∀ f f' : List F → Int → InferenceResult F,
    SameActions cfg.numDof cfg.numBodies f f' →
    asked (run (Policy.ofFun obsSize f) (start cfg s m) evs).log
        = asked (run (Policy.ofFun obsSize f') (start cfg s m) evs).log
      ∧ published (run (Policy.ofFun obsSize f) (start cfg s m) evs).log
        = published
          (run (Policy.ofFun obsSize f') (start cfg s m) evs).log

variable {cfg : BeyondMimicConfig F} {obsSize : Nat} {s m : Int}
  {evs : List (Event D)} {f f' : List F → Int → InferenceResult F}

-- ====================================================== without joints

omit [Scalar F D] [Eigen F] in
/-- For no joints, a motion of full size is empty. -/
theorem WellSized.jointPos_nil {b : Nat} {r : InferenceResult F}
    (h : r.WellSized 0 b) : r.jointPos = [] := by
  rcases h.2 with hm | ⟨hp, -⟩
  · exact congrArg MotionCommand.jointPos hm
  · exact List.length_eq_zero_iff.mp hp

/-- On empty motions every callback computes from the actions alone. -/
theorem step_congr (hact : ∀ obs t, (f obs t).actions = (f' obs t).actions)
    (hf : ∀ obs t, (f obs t).jointPos = [])
    (hf' : ∀ obs t, (f' obs t).jointPos = [])
    (n : RLControllerNode F D) (e : Event D) :
    step (Policy.ofFun obsSize f) n e
      = step (Policy.ofFun obsSize f') n e := by
  cases e with
  | jointState msg => rfl
  | imu msg => rfl
  | timer =>
      show n.timerCallback _ = n.timerCallback _
      unfold timerCallback initializeMotion controlTick initMotion
        updateMotion Policy.ofFun
      simp [hf, hf', hact]

-- ================================================ the first observation

/-- The second inference call of a run: the first observation starts
with the reference positions of the dry run. -/
theorem second_call (hrobot : cfg.robotJointNames ≠ [])
    (hsized : cfg.Sized)
    (hf : ∀ obs t, (f obs t).WellSized cfg.numDof cfg.numBodies)
    (hmotion : (f (List.replicate obsSize 0) s).motion.empty = false)
    (hready : 1 < (seen evs).ready) :
    ∃ obs rest,
      asked (run (Policy.ofFun obsSize f) (start cfg s m) evs).log
        = (List.replicate obsSize 0, s) :: (obs, s) :: rest
      ∧ DataConverter.block obs 0 cfg.numDof
        = (f (List.replicate obsSize 0) s).jointPos := by
  obtain ⟨pre, post, rfl, hboth, hone⟩ := ready_split hready
  have hrunnable := hsized.runnable (Or.inr hrobot)
  have hb := DataConverter.configure_ready DataConverter.init hrunnable
  have hn := DataConverter.configure_numDof DataConverter.init cfg
  have hnet : (Policy.ofFun obsSize f).WellSized cfg.numDof
      cfg.numBodies := fun obs t => ⟨_, rfl, hf obs t⟩
  obtain ⟨n, hrun, hs⟩ := run_ok (D := D) hrunnable hnet s m pre
  have htrack := track_run hrun
  have hask := asked_run hrun
  have hcall : asked (run (Policy.ofFun obsSize f) (start cfg s m)
      pre).log = [(List.replicate obsSize 0, s)] := by
    have hlen := congrArg List.length hask.timesteps
    rw [hone, ticks_of_le_one (le_refl _)] at hlen
    have hnil : ticked (run (Policy.ofFun obsSize f) (start cfg s m)
        pre).log = [] := by simpa using hlen
    rw [hask.dryRun (by omega), hnil]
    rfl
  -- the converter remembers the dry run's motion
  have hcmd : n.converter.command
      = (f (List.replicate obsSize 0) s).motion := by
    rw [(remembers_run hrun).converter]
    show motionCommand (answers f _) = _
    unfold answers
    rw [hcall]
    show motionCommand ([] ++ [f (List.replicate obsSize 0) s]) = _
    rw [motionCommand_snoc, hmotion]
    rfl
  -- the next timer event is a control tick
  have hw := htrack.both.trans hboth
  have hi : n.initialized = true := by
    rw [htrack.initialized, hone]
    rfl
  have hd : n.flagMotionDone = false := by
    rw [htrack.flagMotionDone, motionDone_of_le_one (by omega)]
  have htime : n.timestep = s := by
    rw [htrack.timestep, hone, ticks_of_le_one (le_refl _)]
    simp
  obtain ⟨obs, ho, hlay⟩ := DataConverter.buildObservation_layout hb hs
    n.latestImu.angularVelocity.narrow n.latestImu.orientation.narrow
    n.latestJointState.name n.latestJointState.position
    n.latestJointState.velocity
  have hfirst : ∃ l, (step (Policy.ofFun obsSize f) n .timer).log
      = .infer obs s :: l ∧ asked l = [] := by
    obtain ⟨n', hout, -⟩ := step_ok hb (by
      rw [hn, DataConverter.configure_numBodies]
      exact hnet) hs .timer
    have hts := timerStep_of_ok hout
    show ∃ l, (n.timerCallback (Policy.ofFun obsSize f)).log = _ ∧ _
    generalize (n.timerCallback (Policy.ofFun obsSize f)).log = l at hts
    cases hts with
    | waiting hno => rw [hw] at hno; cases hno
    | init _ hno => rw [hi] at hno; cases hno
    | done _ _ hno => rw [hd] at hno; cases hno
    | @tick _ _ _ obs' _ _ _ _ ho' =>
        cases ho.symm.trans ho'
        rw [htime]
        exact ⟨_, rfl, rfl⟩
  obtain ⟨l, hlog, hquiet⟩ := hfirst
  obtain ⟨rest, hrest⟩ := Logged.run_log_append .timer post hrun
  refine ⟨obs, asked rest, ?_, ?_⟩
  · unfold run at hcall ⊢
    rw [hrest, asked_append, asked_append, hcall, hlog]
    show _ ++ ((obs, s) :: asked l) ++ _ = _
    rw [hquiet]
    rfl
  · have hblock := hlay.refPos
    rw [hs.setup.numDof, hn, hcmd, hmotion] at hblock
    exact hblock

-- =============================================================== the iff

/-- A model that outputs one full-size motion, with the reference
positions `ref`, and no action. -/
def constant (cfg : BeyondMimicConfig F) (ref : List F) :
    InferenceResult F where
  actions := List.replicate cfg.numDof 0
  jointPos := ref
  jointVel := List.replicate cfg.numDof 0
  bodyPosW := List.replicate (3 * cfg.numBodies) 0
  bodyQuatW := List.replicate (4 * cfg.numBodies) 0

omit [Eigen F] in
theorem constant_wellSized {ref : List F} (h : ref.length = cfg.numDof) :
    (constant cfg ref).WellSized cfg.numDof cfg.numBodies :=
  ⟨List.length_replicate, Or.inr ⟨h, List.length_replicate,
    List.length_replicate, List.length_replicate⟩⟩

/-- Before the second ready timer event nothing is built from the
motion. -/
theorem quiet_of_ready_le_one (obsSize : Nat) (s m : Int)
    (hrunnable : cfg.Runnable)
    (hf : ∀ obs t, (f obs t).WellSized cfg.numDof cfg.numBodies)
    (hready : (seen evs).ready ≤ 1) :
    asked (run (Policy.ofFun obsSize f) (start cfg s m) evs).log
        = (if (seen evs).ready = 0 then []
          else [(List.replicate obsSize 0, s)])
      ∧ published (run (Policy.ofFun obsSize f)
          (start cfg s m) evs).log = [] := by
  have hnet : (Policy.ofFun obsSize f).WellSized cfg.numDof
      cfg.numBodies := fun obs t => ⟨_, rfl, hf obs t⟩
  obtain ⟨n, hrun, -⟩ := run_ok (D := D) hrunnable hnet s m evs
  have hask := asked_run hrun
  have hticks := ticks_of_le_one (s := s) (m := m) hready
  have hlen := congrArg List.length hask.timesteps
  have hcmds := hask.commands
  rw [hticks] at hlen hcmds
  have hnil : ticked (run (Policy.ofFun obsSize f) (start cfg s m)
      evs).log = [] := by simpa using hlen
  refine ⟨?_, List.length_eq_zero_iff.mp hcmds⟩
  by_cases hzero : (seen evs).ready = 0
  case pos => rw [if_pos hzero, hask.none hzero]
  rw [if_neg hzero, hask.dryRun (Nat.pos_of_ne_zero hzero), hnil]
  rfl

/-- The motion outputs influence no observation and no command exactly
when there are no joints, or no control tick: the flag
`use_motion_from_model` does not enter. -/
theorem motionIgnored_iff (hone : (0 : F) ≠ 1)
    (hrobot : cfg.robotJointNames ≠ []) (hsized : cfg.Sized) :
    MotionIgnored cfg obsSize s m evs
      ↔ cfg.numDof = 0 ∨ (seen evs).ready ≤ 1 := by
  constructor
  · intro h
    by_cases hdof : cfg.numDof = 0
    case pos => exact Or.inl hdof
    by_cases hready : (seen evs).ready ≤ 1
    case pos => exact Or.inr hready
    -- two constant models that differ in the reference positions
    have hsize : ∀ v : F, (constant cfg
        (List.replicate cfg.numDof v)).WellSized cfg.numDof
        cfg.numBodies :=
      fun v => constant_wellSized List.length_replicate
    have hmotion : ∀ v : F, (constant cfg
        (List.replicate cfg.numDof v)).motion.empty = false := by
      intro v
      show (List.replicate cfg.numDof v).isEmpty = false
      rw [List.isEmpty_eq_false_iff]
      simpa using hdof
    have hcall : ∀ v : F, ∃ obs rest,
        asked (run (Policy.ofFun obsSize fun _ _ =>
          constant cfg (List.replicate cfg.numDof v))
          (start cfg s m) evs).log
          = (List.replicate obsSize 0, s) :: (obs, s) :: rest
        ∧ DataConverter.block obs 0 cfg.numDof
          = List.replicate cfg.numDof v :=
      fun v => second_call hrobot hsized (fun _ _ => hsize v)
        (hmotion v) (not_le.mp hready)
    obtain ⟨obs, rest, hasked, hblock⟩ := hcall 0
    obtain ⟨obs', rest', hasked', hblock'⟩ := hcall 1
    have hsame := (h
      (fun _ _ => constant cfg (List.replicate cfg.numDof 0))
      (fun _ _ => constant cfg (List.replicate cfg.numDof 1))
      ⟨fun _ _ => rfl, fun _ _ => hsize 0, fun _ _ => hsize 1⟩).1
    rw [hasked, hasked'] at hsame
    injection hsame with _ hsame
    injection hsame with hcall _
    have hobs : obs = obs' := congrArg Prod.fst hcall
    rw [hobs, hblock'] at hblock
    have hcontra := List.replicate_right_inj hdof |>.mp hblock
    exact absurd hcontra.symm hone
  · intro h f f' hm
    rcases h with hdof | hready
    · have hsize : ∀ g : List F → Int → InferenceResult F,
          (∀ obs t, (g obs t).WellSized cfg.numDof cfg.numBodies) →
          ∀ obs t, (g obs t).jointPos = [] := by
        intro g hg obs t
        have hwell := hg obs t
        rw [hdof] at hwell
        exact WellSized.jointPos_nil hwell
      have hstep : step (D := D) (Policy.ofFun obsSize f)
          = step (Policy.ofFun obsSize f') := by
        funext n e
        exact step_congr hm.actions (hsize f hm.left)
          (hsize f' hm.right) n e
      unfold run
      rw [hstep]
      exact ⟨rfl, rfl⟩
    · have hrunnable := hsized.runnable (Or.inr hrobot)
      obtain ⟨hask, hpub⟩ := quiet_of_ready_le_one (D := D) obsSize s m
        hrunnable hm.left hready
      obtain ⟨hask', hpub'⟩ := quiet_of_ready_le_one (D := D) obsSize s m
        hrunnable hm.right hready
      rw [hask, hask', hpub, hpub']
      exact ⟨rfl, rfl⟩

-- =============================================== a concrete instance

/-- `crossed`, with the flag down. -/
def flagDown : BeyondMimicConfig ℚ :=
  { DataConverter.crossed with useMotionFromModel := false }

theorem flagDown_sized : flagDown.Sized := ⟨rfl, rfl⟩

/-- A model that acts on the first entry of its observation, with the
motion of `crossedMotion` but the reference positions `ref`. -/
def follow (ref : List ℚ) (obs : List ℚ) (_ : Int) :
    InferenceResult ℚ where
  actions := [obs.headD 0, 0]
  jointPos := ref
  jointVel := [0, 0]
  bodyPosW := [0, 0, 1]
  bodyQuatW := [1, 0, 0, 0]

/-- A run with a control tick, the flag down. -/
theorem motionIgnored_iff_flagDown :
    ¬ MotionIgnored (D := ℚ) flagDown 19 3 (-1) twoReady := by
  rw [motionIgnored_iff (by decide) (by decide) flagDown_sized]
  decide

/-- With the flag down, two models of equal actions see different
observations and make the robot do different things. -/
theorem motion_influences :
    flagDown.useMotionFromModel = false ∧ flagDown.Sized
      ∧ flagDown.robotJointNames ≠ []
      ∧ SameActions flagDown.numDof flagDown.numBodies
          (follow [0, 0]) (follow [1, 2])
      ∧ asked (run (Policy.ofFun 19 (follow [0, 0]))
          (start flagDown 3 (-1)) twoReady).log
        ≠ asked (run (Policy.ofFun 19 (follow [1, 2]))
          (start flagDown 3 (-1)) twoReady).log
      ∧ published (run (Policy.ofFun 19 (follow [0, 0]))
          (start flagDown 3 (-1)) twoReady).log
        ≠ published (run (Policy.ofFun 19 (follow [1, 2]))
          (start flagDown 3 (-1)) twoReady).log := by
  have hsized : ∀ a b : ℚ, ∀ obs t, (follow [a, b] obs t).WellSized
      flagDown.numDof flagDown.numBodies :=
    fun a b obs t => ⟨rfl, Or.inr ⟨rfl, rfl, rfl, rfl⟩⟩
  refine ⟨rfl, flagDown_sized, by decide,
    ⟨fun _ _ => rfl, hsized 0 0, hsized 1 2⟩, ?_, ?_⟩
  · decide +kernel
  · decide +kernel

end RLControllerNode

end RlDeploy
