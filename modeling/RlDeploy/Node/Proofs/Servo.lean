/-
The loop over the robot, when its joints go where they are told.

The policy reads two things of a joint: where it is, and what the policy
itself last asked of it. If the joint message that a tick reads is the
last command, in any order and among any other joints, then the two
agree (`servo_echo`): the position, relative to the default, is the
remembered action, clipped and scaled. So a policy can tell from one
observation how far a joint is from its command, whatever happened in
the run before, and however many messages came in between.

What ties them together is one fact that every callback keeps: the last
command published is what the controller still holds its joints at
(`published_last`).
-/
import RlDeploy.Node.Proofs.Slew
import RlDeploy.Node.Proofs.Partial
import RlDeploy.Converter.Proofs.Echo

namespace RlDeploy

open Lib

namespace RLControllerNode

section Run

variable [Eigen ℚ] {cfg : BeyondMimicConfig ℚ} {net : Policy ℚ}
  {n n' : RLControllerNode ℚ ℚ}

-- ==================================================== the last command

/-- The last command of a log, if there is one, is what the node holds
its joints at. -/
def HoldsLast (cfg : BeyondMimicConfig ℚ) (log : List (Act ℚ ℚ))
    (n : RLControllerNode ℚ ℚ) : Prop :=
  ∀ cmd, (published log).getLast? = some cmd → Published cfg cmd n

/-- Only a timer event that ticks publishes, and what it publishes is
what the node holds its joints at from then on. -/
theorem step_holdsLast (hres : cfg.useResidualAction = false)
    (hj : cfg.jointNames.Nodup) (hr : cfg.robotJointNames.Nodup)
    (hrobot : cfg.robotJointNames ≠ []) (hsized : cfg.Sized)
    (hnet : net.FullSize cfg.numDof cfg.numBodies)
    (hs : DataConverter.Sound (DataConverter.init.configure cfg)
      n.converter) {log : List (Act ℚ ℚ)} (h : HoldsLast cfg log n)
    {e : Event ℚ} (hstep : (step net n e).out = .ok n') :
    HoldsLast cfg (log ++ (step net n e).log) n' := by
  have hquiet : (step net n e).log = [] →
      n'.converter = n.converter → n'.initialized = n.initialized →
      HoldsLast cfg (log ++ (step net n e).log) n' := by
    intro hlog hconv hinit cmd hcmd
    rw [hlog, List.append_nil] at hcmd
    obtain ⟨hname, hpos, hstarted⟩ := h cmd hcmd
    exact ⟨hname, by rw [hconv]; exact hpos, by rw [hinit]; exact hstarted⟩
  cases e with
  | jointState msg => cases hstep; exact hquiet rfl rfl rfl
  | imu msg => cases hstep; exact hquiet rfl rfl rfl
  | timer =>
      have hts := timerStep_of_ok hstep
      have hlog : (step net n .timer).log
        = (n.timerCallback net).log := rfl
      rw [hlog] at hquiet ⊢
      generalize (n.timerCallback net).log = l at hts hquiet ⊢
      cases hts with
      | waiting => exact hquiet rfl rfl rfl
      | done => exact hquiet rfl rfl rfl
      | @init hw hi res dc₁ dc₂ scaled hr' hm hp =>
          -- nothing has been published before the dry run
          intro cmd hcmd
          have hpub : published (log
              ++ [.infer (List.replicate net.obsSize 0) n.timestep,
                .process res.actions]) = published log ++ [] :=
            List.filterMap_append ..
          rw [hpub, List.append_nil] at hcmd
          have hstarted := (h cmd hcmd).started
          rw [hi] at hstarted
          cases hstarted
      | @tick hw hi hd obs res dc₂ action target ho hinf hp ht =>
          have hn := DataConverter.configure_numDof DataConverter.init cfg
          have hnb := DataConverter.configure_numBodies
            DataConverter.init cfg
          obtain ⟨hlen, hmot⟩ := hnet _ _ _ hinf
          rw [← hn, ← hnb] at hmot
          obtain ⟨hname, hpos⟩ := command_held hres hj hr hrobot hsized
            (sound_updateMotion hs hmot) hlen hp ht
          intro cmd hcmd
          have hpub : published (log ++ [.infer obs n.timestep,
              .process res.actions,
              .publish (dc₂.actionToJointCmd target)])
              = published log ++ [dc₂.actionToJointCmd target] :=
            List.filterMap_append ..
          rw [hpub, List.getLast?_concat] at hcmd
          cases hcmd
          refine ⟨hname, ?_, ?_⟩
          · rw [advance_converter]
            exact hpos
          · rw [advance_initialized]
            exact hi

/-- The last command published in a run is what the node holds its
joints at. -/
theorem published_last (hres : cfg.useResidualAction = false)
    (hj : cfg.jointNames.Nodup) (hr : cfg.robotJointNames.Nodup)
    (hrobot : cfg.robotJointNames ≠ []) (hsized : cfg.Sized)
    (hnet : net.FullSize cfg.numDof cfg.numBodies) {s m : Int}
    {past : List (Event ℚ)}
    (hn : (run net (start cfg s m) past).out = .ok n) :
    HoldsLast cfg (run net (start cfg s m) past).log n := by
  refine Logged.run_past (fun _ log n => HoldsLast cfg log n) ?_ ?_ hn
  · intro cmd hcmd
    cases hcmd
  · intro past' n₁ e n₂ hpast h hstep
    exact step_holdsLast hres hj hr hrobot hsized hnet
      (run_sound (hsized.runnable (Or.inr hrobot)) hnet hpast) h hstep

-- ================================================== what a tick observes

/-- The observation that a started node asks the model with. -/
theorem infer_observation (hi : n.initialized = true) {obs : List ℚ}
    {t : Int} (h : Act.infer obs t ∈ (n.timerCallback net).log) :
    n.converter.buildObservation n.latestImu.angularVelocity.narrow
      n.latestImu.orientation.narrow n.latestJointState.name
      n.latestJointState.position n.latestJointState.velocity
      = .ok obs := by
  cases hout : (n.timerCallback net).out with
  | ok n₁ =>
      have hts := timerStep_of_ok hout
      generalize (n.timerCallback net).log = l at hts h
      cases hts with
      | waiting => cases h
      | done => cases h
      | init _ hi' => rw [hi] at hi'; cases hi'
      | tick _ _ _ ho =>
          simp only [List.mem_cons, Act.infer.injEq, reduceCtorEq,
            List.not_mem_nil, or_false] at h
          rw [h.1]
          exact ho
  | error f =>
      have hts := timerStop_of_error hout
      generalize (n.timerCallback net).log = l at hts h
      cases hts with
      | initInfer _ hi' => rw [hi] at hi'; cases hi'
      | initMotion _ hi' => rw [hi] at hi'; cases hi'
      | initProcess _ hi' => rw [hi] at hi'; cases hi'
      | observe => cases h
      | infer _ _ _ ho =>
          simp only [List.mem_cons, Act.infer.injEq, List.not_mem_nil,
            or_false] at h
          rw [h.1]
          exact ho
      | process _ _ _ ho =>
          simp only [List.mem_cons, Act.infer.injEq, reduceCtorEq,
            List.not_mem_nil, or_false] at h
          rw [h.1]
          exact ho
      | target _ _ _ ho =>
          simp only [List.mem_cons, Act.infer.injEq, reduceCtorEq,
            List.not_mem_nil, or_false] at h
          rw [h.1]
          exact ho

omit [Eigen ℚ] in
/-- Where a joint is held is where its default and its remembered action
put it, in a message that feeds the last command back. -/
theorem messageEntry_fedBack (hr : cfg.robotJointNames.Nodup)
    (hinj : ∀ a ∈ cfg.robotJointNames, ∀ b ∈ cfg.robotJointNames,
      (DataConverter.init.configure cfg).wireName a
        = (DataConverter.init.configure cfg).wireName b → a = b)
    (hs : DataConverter.Sound (DataConverter.init.configure cfg)
      n.converter) {cmd : JointState ℚ} (h : Published cfg cmd n)
    {names : List String} {pos : List ℚ}
    (hfed : DataConverter.FedBack cmd names pos) {joint : String}
    (hjoint : joint ∈ cfg.robotJointNames) :
    n.converter.messageEntry names pos joint
      = held cfg n.converter.lastAction joint := by
  obtain ⟨c, hc⟩ := List.mem_iff_getElem?.mp hjoint
  have hnames : cmd.name.Nodup := by
    rw [h.name]
    apply hr.map_on
    intro a ha b hb heq
    exact hinj a ha b hb heq
  have hname : cmd.name[c]? = some
      ((DataConverter.init.configure cfg).wireName joint) := by
    rw [h.name, List.getElem?_map, hc]
    rfl
  have hpos : cmd.position[c]?
      = some (held cfg n.converter.lastAction joint) := by
    rw [h.position, List.getElem?_map, hc]
    rfl
  obtain ⟨k, hk, hv⟩ := DataConverter.fedBack_entry hfed hnames hname hpos
  unfold DataConverter.messageEntry
  rw [hs.setup.wireName, hk]
  simp only [hv]
  rfl

/-- A tick that reads the last command back as the robot's state shows
the policy, for each joint that the robot and the model have, its own
remembered action in both places: as it is, and clipped and scaled as
the joint's position. -/
theorem servo_echo (hres : cfg.useResidualAction = false)
    (hj : cfg.jointNames.Nodup) (hr : cfg.robotJointNames.Nodup)
    (hrobot : cfg.robotJointNames ≠ []) (hsized : cfg.Sized)
    (hinj : ∀ a ∈ cfg.robotJointNames, ∀ b ∈ cfg.robotJointNames,
      (DataConverter.init.configure cfg).wireName a
        = (DataConverter.init.configure cfg).wireName b → a = b)
    (hnet : net.FullSize cfg.numDof cfg.numBodies) {s m : Int}
    {past : List (Event ℚ)}
    (hn : (run net (start cfg s m) past).out = .ok n)
    {cmd : JointState ℚ}
    (hcmd : (published (run net (start cfg s m) past).log).getLast?
      = some cmd)
    (hfed : DataConverter.FedBack cmd n.latestJointState.name
      n.latestJointState.position) :
    ∀ obs t, Act.infer obs t ∈ (step net n .timer).log →
      ∀ (i : Nat) (joint : String), cfg.jointNames[i]? = some joint →
        joint ∈ cfg.robotJointNames →
        ∃ a k, (DataConverter.block obs
            (n.converter.anchorEnd + 3 + 2 * cfg.numDof)
            cfg.numDof)[i]? = some a
          ∧ cfg.actionScales[i]? = some k
          ∧ (DataConverter.block obs (n.converter.anchorEnd + 3)
            cfg.numDof)[i]?
            = some (clamp a (-cfg.clipActions) cfg.clipActions * k) := by
  have hcfg := hsized.runnable (Or.inr hrobot)
  have hready := DataConverter.configure_ready DataConverter.init hcfg
  have hs := run_sound hcfg hnet hn
  have hpub := published_last hres hj hr hrobot hsized hnet hn cmd hcmd
  have hdof : n.converter.numDof = cfg.numDof := hs.setup.joints
  intro obs t hinfer i joint hi hjoint
  have hobs := infer_observation hpub.started hinfer
  obtain ⟨obs', hobs', hlayout⟩ := DataConverter.buildObservation_layout
    hready hs n.latestImu.angularVelocity.narrow
    n.latestImu.orientation.narrow n.latestJointState.name
    n.latestJointState.position n.latestJointState.velocity
  cases hobs'.symm.trans hobs
  have hlt : i < cfg.numDof := (List.getElem?_eq_some_iff.mp hi).1
  obtain ⟨d, hd⟩ : ∃ d, cfg.defaultDofPos[i]? = some d :=
    ⟨_, List.getElem?_eq_getElem (by
      rw [hsized.defaultDofPos]; exact hlt)⟩
  obtain ⟨k, hk⟩ : ∃ k, cfg.actionScales[i]? = some k :=
    ⟨_, List.getElem?_eq_getElem (by
      rw [hsized.actionScales]; exact hlt)⟩
  obtain ⟨a, ha⟩ : ∃ a, n.converter.lastAction[i]? = some a :=
    ⟨_, List.getElem?_eq_getElem (by
      rw [hs.last, DataConverter.configure_numDof]; exact hlt)⟩
  obtain ⟨c, hc⟩ := List.mem_iff_getElem?.mp hjoint
  refine ⟨a, k, ?_, hk, ?_⟩
  · rw [← hdof, hlayout.lastAction]
    exact ha
  · rw [← hdof, hlayout.relPos, DataConverter.posBlock_getElem? hrobot hj
      hr hs hi hc hd, messageEntry_fedBack hr hinj hs hpub hfed hjoint,
      held_matched hj hi hd ha hk, add_sub_cancel_left]

end Run

/-- The second joint message is the command of the first tick, in another
order and with a joint that is not commanded. -/
def echoed : List (Event ℚ) :=
  twoReady ++ [.jointState ⟨["leg_l1", "tail", "knee"], [11 / 16, 5, -1],
    [], []⟩]

theorem restless_fullSize :
    restless.FullSize averaged.numDof averaged.numBodies := by
  intro obs t r h
  cases h
  exact ⟨rfl, fullResult_wellSized.2⟩

theorem servo_echo_crossed :
    ∃ n : RLControllerNode ℚ ℚ,
      (run restless (start averaged 4 (-1)) echoed).out = .ok n
      ∧ ∀ obs t, Act.infer obs t ∈ (step restless n .timer).log →
        ∀ (i : Nat) (joint : String),
          averaged.jointNames[i]? = some joint →
          joint ∈ averaged.robotJointNames →
          ∃ a k, (DataConverter.block obs
              (n.converter.anchorEnd + 3 + 2 * averaged.numDof)
              averaged.numDof)[i]? = some a
            ∧ averaged.actionScales[i]? = some k
            ∧ (DataConverter.block obs (n.converter.anchorEnd + 3)
              averaged.numDof)[i]?
              = some (clamp a (-averaged.clipActions)
                averaged.clipActions * k) := by
  obtain ⟨n, hn, hv⟩ := map_ok (show
    (run restless (start averaged 4 (-1)) echoed).out.map (fun n =>
      (n.latestJointState.name, n.latestJointState.position))
      = .ok (["leg_l1", "tail", "knee"], [11 / 16, 5, -1]) by
      decide +kernel)
  obtain ⟨hnames, hpos⟩ := Prod.mk.inj hv
  have hcmd : (published
      (run restless (start averaged 4 (-1)) echoed).log).getLast?
      = some ⟨["knee", "leg_l1"], [-1, 11 / 16], [0, 0], [0, 0]⟩ := by
    decide +kernel
  have hfed : DataConverter.FedBack
      (⟨["knee", "leg_l1"], [-1, 11 / 16], [0, 0], [0, 0]⟩ :
        JointState ℚ)
      n.latestJointState.name n.latestJointState.position := by
    rw [hnames, hpos]
    exact ⟨rfl, [("tail", 5)], by decide, by decide +kernel⟩
  have hinj : ∀ a ∈ averaged.robotJointNames,
      ∀ b ∈ averaged.robotJointNames,
      (DataConverter.init.configure averaged).wireName a
        = (DataConverter.init.configure averaged).wireName b → a = b := by
    decide +kernel
  exact ⟨n, hn, servo_echo rfl (by decide) (by decide) (by decide)
    ⟨rfl, rfl⟩ hinj restless_fullSize hn hcmd hfed⟩

end RLControllerNode

end RlDeploy
