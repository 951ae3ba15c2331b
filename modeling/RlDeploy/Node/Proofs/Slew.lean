/-
How fast a command can move.

Between one published command and the next, the model is asked once, and
its actions enter through the moving average: the remembered action of a
joint moves by `action_beta` times its distance from the new action. If
the model keeps its actions within `r`, the average stays within `r` too
(`Quiet`), so a joint's remembered action moves by at most `2 * beta * r`
a tick. The clip brings values together, never apart
(`abs_clamp_sub_le`), and leaves nothing further apart than its width.

Outside residual mode the rest of the way to the motors is constant: a
command is a function of the remembered action alone (`held`,
`command_held`). So the bound arrives at the joint, times its scale.

The model need not answer, and the run need not return: a callback that
stops publishes nothing.
-/
import RlDeploy.Node.Proofs.Envelope
import RlDeploy.Lib.Consecutive

namespace RlDeploy

open Lib

-- =========================================================== the clamp

/-- The clamp as a bound from both sides. -/
theorem clamp_eq {v c : ℚ} (hc : 0 ≤ c) :
    clamp v (-c) c = max (-c) (min v c) := by
  have hlo : Scalar.lt v (-c) = decide (v < -c) := rfl
  have hhi : Scalar.lt c v = decide (c < v) := rfl
  unfold clamp
  rw [hlo, hhi]
  by_cases h₁ : v < -c
  case pos =>
    have hmin : min v c ≤ -c := (min_le_left v c).trans h₁.le
    rw [if_pos (decide_eq_true h₁), max_eq_left hmin]
  by_cases h₂ : c < v
  case pos =>
    rw [if_neg (by simpa using h₁), if_pos (decide_eq_true h₂),
      min_eq_right h₂.le, max_eq_right (by linarith)]
  rw [if_neg (by simpa using h₁), if_neg (by simpa using h₂),
    min_eq_left (not_lt.mp h₂), max_eq_right (not_lt.mp h₁)]

/-- Clamped values are no further apart than they were. -/
theorem abs_clamp_sub_le {v w c : ℚ} (hc : 0 ≤ c) :
    |clamp v (-c) c - clamp w (-c) c| ≤ |v - w| := by
  rw [clamp_eq hc, clamp_eq hc]
  calc |max (-c) (min v c) - max (-c) (min w c)|
      ≤ |min v c - min w c| := abs_max_sub_max_le_max _ _ _ _ |>.trans (by
        rw [sub_self, abs_zero]
        exact max_le (abs_nonneg _) le_rfl)
    _ ≤ |v - w| := abs_min_sub_min_le_max _ _ _ _ |>.trans (by
        rw [sub_self, abs_zero]
        exact max_le le_rfl (abs_nonneg _))

/-- And not further apart than the clamp is wide. -/
theorem abs_clamp_sub_le_width {v w c : ℚ} (hc : 0 ≤ c) :
    |clamp v (-c) c - clamp w (-c) c| ≤ 2 * c := by
  have hv := abs_le.mp (abs_clamp_le (v := v) hc)
  have hw := abs_le.mp (abs_clamp_le (v := w) hc)
  exact abs_le.mpr ⟨by linarith, by linarith⟩

namespace RLControllerNode

-- ================================================== what a command holds

/-- What the controller holds joint `joint` at, from what it remembers:
the default plus the clipped and scaled action of the model joint of
that name, and the filler `0` if the model has none. -/
def held (cfg : BeyondMimicConfig ℚ) (last : List ℚ) (joint : String) :
    ℚ :=
  (do
    let d ← valueAt cfg.jointNames cfg.defaultDofPos joint
    let a ← valueAt cfg.jointNames last joint
    let k ← valueAt cfg.jointNames cfg.actionScales joint
    return d + clamp a (-cfg.clipActions) cfg.clipActions * k).getD 0

/-- The scale of the joint, `0` for a joint the model does not have. -/
def gain (cfg : BeyondMimicConfig ℚ) (joint : String) : ℚ :=
  (valueAt cfg.jointNames cfg.actionScales joint).getD 0

section Held

variable {cfg : BeyondMimicConfig ℚ} {joint : String}

theorem held_unmatched (hn : joint ∉ cfg.jointNames) (last : List ℚ) :
    held cfg last joint = 0 := by
  unfold held
  rw [valueAt_eq_none hn]
  rfl

theorem held_matched (hj : cfg.jointNames.Nodup) {i : Nat}
    (hi : cfg.jointNames[i]? = some joint) {last : List ℚ} {d a k : ℚ}
    (hd : cfg.defaultDofPos[i]? = some d) (ha : last[i]? = some a)
    (hk : cfg.actionScales[i]? = some k) :
    held cfg last joint
      = d + clamp a (-cfg.clipActions) cfg.clipActions * k := by
  unfold held
  rw [valueAt_of_nodup hj hi, valueAt_of_nodup hj hi,
    valueAt_of_nodup hj hi, hd, ha, hk]
  rfl

/-- Outside residual mode a command is what the controller holds its
joints at. -/
theorem command_held (hres : cfg.useResidualAction = false)
    (hj : cfg.jointNames.Nodup) (hr : cfg.robotJointNames.Nodup)
    (hrobot : cfg.robotJointNames ≠ []) (hsized : cfg.Sized)
    {dc dc₂ : DataConverter ℚ} {raw action target : List ℚ}
    (hs : DataConverter.Sound (DataConverter.init.configure cfg) dc)
    (hraw : raw.length = cfg.numDof)
    (hp : dc.processAction raw = .ok (dc₂, action))
    (ht : dc₂.computePdTarget action = .ok target) :
    (dc₂.actionToJointCmd target : JointState ℚ).name
        = cfg.robotJointNames.map
          (DataConverter.init.configure cfg).wireName
      ∧ (dc₂.actionToJointCmd target : JointState ℚ).position
        = cfg.robotJointNames.map (held cfg dc₂.lastAction) := by
  have hn := DataConverter.configure_numDof DataConverter.init cfg
  have hb := DataConverter.configure_ready DataConverter.init
    (hsized.runnable (Or.inr hrobot))
  obtain ⟨k, hcfg⟩ := hs.setup.config
  have hdof : dc.numDof = cfg.numDof := hs.setup.joints
  obtain ⟨hp', hs₂, hlen⟩ := hs.processAction hb.scales
    (hraw.trans hn.symm)
  rw [hp'] at hp
  cases hp
  have hact := hlen.trans hn
  rw [DataConverter.computePdTarget_robot hrobot hsized hs₂ hact] at ht
  cases ht
  refine ⟨?_, ?_⟩
  · rw [DataConverter.command_name hrobot hs₂]
    apply List.map_congr_left
    intro joint _
    exact hs₂.setup.wireName joint
  · rw [DataConverter.command_position hrobot hs₂]
    apply List.ext_getElem?
    intro c
    rw [List.getElem?_map, List.getElem?_map]
    cases hc : cfg.robotJointNames[c]? with
    | none =>
        rw [List.getElem?_eq_none (by
          rw [DataConverter.published_length]
          exact List.getElem?_eq_none_iff.mp hc)]
        rfl
    | some joint =>
        by_cases hmem : joint ∈ cfg.jointNames
        case neg =>
          rw [DataConverter.published_unmatched hj hr hc hmem,
            Option.map_some, Option.map_some, held_unmatched hmem]
          rfl
        obtain ⟨i, hi⟩ := List.mem_iff_getElem?.mp hmem
        have hlt : i < cfg.numDof := (List.getElem?_eq_some_iff.mp hi).1
        obtain ⟨t, ht, hpub⟩ := DataConverter.published_match hrobot
          hsized hj hr hs₂ hact hc hi
        rw [hpub]
        obtain ⟨d, hd⟩ : ∃ d, cfg.defaultDofPos[i]? = some d :=
          ⟨_, List.getElem?_eq_getElem (by
            rw [hsized.defaultDofPos]; exact hlt)⟩
        obtain ⟨s, hscale⟩ : ∃ s, cfg.actionScales[i]? = some s :=
          ⟨_, List.getElem?_eq_getElem (by
            rw [hsized.actionScales]; exact hlt)⟩
        obtain ⟨a, ha⟩ : ∃ a, (dc.smoothed raw)[i]? = some a :=
          ⟨_, List.getElem?_eq_getElem (by
            rw [hs₂.last.trans hn]; exact hlt)⟩
        have hemit : (dc.scaled raw)[i]?
            = some (clamp a (-cfg.clipActions) cfg.clipActions * s) := by
          unfold DataConverter.scaled
          rw [List.getElem?_zipWith, ha,
            List.getElem?_take_of_lt (by rw [hdof]; exact hlt), hcfg,
            hscale]
        have htarget : t
            = d + clamp a (-cfg.clipActions) cfg.clipActions * s := by
          unfold DataConverter.jointTarget at ht
          rw [hcfg, hemit] at ht
          simp only [hres, Bool.false_and, Bool.false_eq_true, if_false,
            hd, Option.bind_eq_bind, Option.bind_some, Option.pure_def,
            Option.some.injEq] at ht
          exact ht.symm
        rw [Option.map_some, Option.map_some,
          held_matched hj hi hd ha hscale, htarget]
        rfl

end Held

-- ================================================== one tick further on

section Average

variable {cfg : BeyondMimicConfig ℚ} {dc : DataConverter ℚ} {r : ℚ}

/-- No entry is beyond `r`. -/
def Within (r : ℚ) (xs : List ℚ) : Prop := ∀ x ∈ xs, |x| ≤ r

/-- The weighted mean of two values within `r` is, and it is within
`2 * b * r` of the old one. -/
theorem mean_within {b x y : ℚ} (hb : 0 ≤ b) (hb1 : b ≤ 1)
    (hx : |x| ≤ r) (hy : |y| ≤ r) :
    |(1 - b) * x + b * y| ≤ r
      ∧ |(1 - b) * x + b * y - x| ≤ 2 * b * r := by
  have hb1' : 0 ≤ 1 - b := sub_nonneg.mpr hb1
  have hstep : (1 - b) * x + b * y - x = b * (y - x) := by ring
  constructor
  · calc |(1 - b) * x + b * y|
        ≤ |(1 - b) * x| + |b * y| := abs_add_le _ _
      _ = (1 - b) * |x| + b * |y| := by
          rw [abs_mul, abs_mul, abs_of_nonneg hb1', abs_of_nonneg hb]
      _ ≤ (1 - b) * r + b * r :=
          add_le_add (mul_le_mul_of_nonneg_left hx hb1')
            (mul_le_mul_of_nonneg_left hy hb)
      _ = r := by ring
  · rw [hstep, abs_mul, abs_of_nonneg hb]
    have hdist : |y - x| ≤ 2 * r := by
      calc |y - x| ≤ |y| + |x| := abs_sub _ _
        _ ≤ 2 * r := by linarith
    calc b * |y - x| ≤ b * (2 * r) :=
          mul_le_mul_of_nonneg_left hdist hb
      _ = 2 * b * r := by ring

/-- The remembered action stays within what the model keeps to. -/
theorem smoothed_within (hb : 0 ≤ dc.cfg.actionBeta)
    (hb1 : dc.cfg.actionBeta ≤ 1) (hlast : Within r dc.lastAction)
    {raw : List ℚ} (hraw : Within r raw) :
    Within r (dc.smoothed raw) := by
  intro v hv
  unfold DataConverter.smoothed at hv
  obtain ⟨i, hi⟩ := List.mem_iff_getElem?.mp hv
  obtain ⟨x, y, hx, hy, rfl⟩ :=
    List.getElem?_zipWith_eq_some.mp hi
  exact (mean_within hb hb1
    (hlast x (List.mem_of_mem_take (List.mem_of_getElem? hx)))
    (hraw y (List.mem_of_mem_take (List.mem_of_getElem? hy)))).1

/-- What a joint is held at moves in one tick by no more than its scale
allows. -/
theorem held_step (hclip : 0 ≤ cfg.clipActions)
    (hb : 0 ≤ cfg.actionBeta) (hb1 : cfg.actionBeta ≤ 1)
    (hj : cfg.jointNames.Nodup) (hsized : cfg.Sized)
    (hs : DataConverter.Sound (DataConverter.init.configure cfg) dc)
    (hlast : Within r dc.lastAction) {raw : List ℚ}
    (hlen : raw.length = cfg.numDof) (hraw : Within r raw)
    (joint : String) :
    |held cfg (dc.smoothed raw) joint - held cfg dc.lastAction joint|
      ≤ min (2 * cfg.actionBeta * r) (2 * cfg.clipActions)
        * |gain cfg joint| := by
  by_cases hmem : joint ∈ cfg.jointNames
  case neg =>
    have hgain : gain cfg joint = 0 := by
      unfold gain
      rw [valueAt_eq_none hmem]
      rfl
    rw [held_unmatched hmem, held_unmatched hmem, hgain, sub_self,
      abs_zero, mul_zero]
  obtain ⟨i, hi⟩ := List.mem_iff_getElem?.mp hmem
  have hlt : i < cfg.numDof := (List.getElem?_eq_some_iff.mp hi).1
  have hdof : dc.numDof = cfg.numDof := hs.setup.joints
  obtain ⟨c, hcfg⟩ := hs.setup.config
  obtain ⟨d, hd⟩ : ∃ d, cfg.defaultDofPos[i]? = some d :=
    ⟨_, List.getElem?_eq_getElem (by
      rw [hsized.defaultDofPos]; exact hlt)⟩
  obtain ⟨k, hk⟩ : ∃ k, cfg.actionScales[i]? = some k :=
    ⟨_, List.getElem?_eq_getElem (by
      rw [hsized.actionScales]; exact hlt)⟩
  obtain ⟨a, ha⟩ : ∃ a, dc.lastAction[i]? = some a :=
    ⟨_, List.getElem?_eq_getElem (by
      rw [hs.last, DataConverter.configure_numDof]; exact hlt)⟩
  obtain ⟨x, hx⟩ : ∃ x, raw[i]? = some x :=
    ⟨_, List.getElem?_eq_getElem (by rw [hlen]; exact hlt)⟩
  have ha' : (dc.smoothed raw)[i]?
      = some ((1 - cfg.actionBeta) * a + cfg.actionBeta * x) := by
    unfold DataConverter.smoothed
    rw [List.getElem?_zipWith,
      List.getElem?_take_of_lt (by rw [hdof]; exact hlt),
      List.getElem?_take_of_lt (by rw [hdof]; exact hlt), ha, hx, hcfg]
  have hgain : gain cfg joint = k := by
    unfold gain
    rw [valueAt_of_nodup hj hi, hk]
    rfl
  have hmove := (mean_within hb hb1 (hlast a (List.mem_of_getElem? ha))
    (hraw x (List.mem_of_getElem? hx))).2
  rw [held_matched hj hi hd ha' hk, held_matched hj hi hd ha hk, hgain,
    add_sub_add_left_eq_sub, ← sub_mul, abs_mul]
  exact mul_le_mul_of_nonneg_right
    (le_min ((abs_clamp_sub_le hclip).trans hmove)
      (abs_clamp_sub_le_width hclip)) (abs_nonneg k)

end Average

-- ============================================================ the run

/-- From one command to the next: the same joints under the same names,
each moved by at most `rate` times its scale, and not at all where the
model does not have it. -/
structure Slewed (cfg : BeyondMimicConfig ℚ) (rate : ℚ)
    (cmd cmd' : JointState ℚ) : Prop where
  name : cmd'.name = cmd.name
  length : cmd'.position.length = cmd.position.length
  near : ∀ (c : Nat) (joint : String),
    cfg.robotJointNames[c]? = some joint →
    ∃ p p', cmd.position[c]? = some p ∧ cmd'.position[c]? = some p'
      ∧ |p' - p| ≤ rate * |gain cfg joint|

/-- The node has published `cmd` last. -/
structure Published (cfg : BeyondMimicConfig ℚ) (cmd : JointState ℚ)
    (n : RLControllerNode ℚ ℚ) : Prop where
  name : cmd.name = cfg.robotJointNames.map
    (DataConverter.init.configure cfg).wireName
  position : cmd.position
    = cfg.robotJointNames.map (held cfg n.converter.lastAction)
  started : n.initialized = true

/-- A node whose memory is within what the model keeps to. -/
structure Quiet (cfg : BeyondMimicConfig ℚ) (r : ℚ)
    (n : RLControllerNode ℚ ℚ) : Prop where
  sound : DataConverter.Sound (DataConverter.init.configure cfg)
    n.converter
  last : Within r n.converter.lastAction

section Run

variable {cfg : BeyondMimicConfig ℚ} {r : ℚ}

/-- Neighbours that are what the controller holds before and after. -/
theorem slewed_of_held {rate : ℚ} {last last' : List ℚ}
    {cmd cmd' : JointState ℚ} (hname : cmd'.name = cmd.name)
    (hpos : cmd.position = cfg.robotJointNames.map (held cfg last))
    (hpos' : cmd'.position = cfg.robotJointNames.map (held cfg last'))
    (hstep : ∀ joint, |held cfg last' joint - held cfg last joint|
      ≤ rate * |gain cfg joint|) : Slewed cfg rate cmd cmd' := by
  refine ⟨hname, ?_, ?_⟩
  · rw [hpos, hpos', List.length_map, List.length_map]
  · intro c joint hc
    refine ⟨_, _, ?_, ?_, hstep joint⟩
    · rw [hpos, List.getElem?_map, hc]
      rfl
    · rw [hpos', List.getElem?_map, hc]
      rfl

/-- The command among the outputs of a callback. -/
def asCommand : Act ℚ ℚ → Option (JointState ℚ)
  | .publish cmd => some cmd
  | _ => none

theorem published_eq (log : List (Act ℚ ℚ)) :
    published log = log.filterMap asCommand := by
  unfold published
  apply List.filterMap_congr
  intro a _
  cases a <;> rfl

/-- Processing an action that the model keeps to keeps the memory within
it. -/
theorem quiet_process (hb : 0 ≤ cfg.actionBeta) (hb1 : cfg.actionBeta ≤ 1)
    (hrun : cfg.Runnable) {dc dc₂ : DataConverter ℚ}
    (hs : DataConverter.Sound (DataConverter.init.configure cfg) dc)
    (hlast : Within r dc.lastAction) {raw scaled : List ℚ}
    (hlen : raw.length = cfg.numDof) (hact : Within r raw)
    (hp : dc.processAction raw = .ok (dc₂, scaled)) :
    DataConverter.Sound (DataConverter.init.configure cfg) dc₂
      ∧ Within r dc₂.lastAction := by
  have hn := DataConverter.configure_numDof DataConverter.init cfg
  have hready := DataConverter.configure_ready DataConverter.init hrun
  obtain ⟨k, hcfg⟩ := hs.setup.config
  obtain ⟨hp', hs₂, -⟩ := hs.processAction hready.scales
    (hlen.trans hn.symm)
  cases hp'.symm.trans hp
  refine ⟨hs₂, smoothed_within ?_ ?_ hlast hact⟩
  · rw [hcfg]
    exact hb
  · rw [hcfg]
    exact hb1

/-- One callback: it leaves the last command standing, or publishes one
that is near it. -/
theorem slew_step [Eigen ℚ] (hres : cfg.useResidualAction = false)
    (hclip : 0 ≤ cfg.clipActions) (hb : 0 ≤ cfg.actionBeta)
    (hb1 : cfg.actionBeta ≤ 1) (hj : cfg.jointNames.Nodup)
    (hr : cfg.robotJointNames.Nodup) (hrobot : cfg.robotJointNames ≠ [])
    (hsized : cfg.Sized) {net : Policy ℚ}
    (hnet : ∀ obs t res, net.infer obs t = .ok res →
      res.WellSized cfg.numDof cfg.numBodies ∧ Within r res.actions)
    {n n' : RLControllerNode ℚ ℚ} {e : Event ℚ} (hq : Quiet cfg r n)
    (h : (step net n e).out = .ok n') :
    Quiet cfg r n' ∧ Logged.PutsOut asCommand (Published cfg)
      (Slewed cfg (min (2 * cfg.actionBeta * r) (2 * cfg.clipActions)))
      n (step net n e).log n' := by
  have hn := DataConverter.configure_numDof DataConverter.init cfg
  have hnb := DataConverter.configure_numBodies DataConverter.init cfg
  have hrun := hsized.runnable (Or.inr hrobot)
  have hready := DataConverter.configure_ready DataConverter.init hrun
  cases e with
  | jointState msg =>
      cases h
      refine ⟨⟨hq.sound, hq.last⟩, .nothing rfl ?_⟩
      intro cmd hcmd
      exact ⟨hcmd.name, hcmd.position, hcmd.started⟩
  | imu msg =>
      cases h
      refine ⟨⟨hq.sound, hq.last⟩, .nothing rfl ?_⟩
      intro cmd hcmd
      exact ⟨hcmd.name, hcmd.position, hcmd.started⟩
  | timer =>
      have hts := timerStep_of_ok h
      show _ ∧ Logged.PutsOut _ _ _ _ (n.timerCallback net).log _
      generalize (n.timerCallback net).log = l at hts
      cases hts with
      | waiting => exact ⟨hq, .nothing rfl fun _ hcmd => hcmd⟩
      | done => exact ⟨hq, .nothing rfl fun _ hcmd => hcmd⟩
      | @init hw hi res dc₁ dc₂ scaled hres' hm hp =>
          obtain ⟨⟨hlen, hmot⟩, hact⟩ := hnet _ _ _ hres'
          rw [← hn, ← hnb] at hmot
          obtain ⟨dc₁', hm', hs₁⟩ := sound_initMotion hready hq.sound hmot
          cases hm'.symm.trans hm
          have hlast : Within r dc₁.lastAction := by
            obtain ⟨a, ha⟩ := initMotion_ok hm
            rw [ha, updateMotion_eq]
            exact hq.last
          obtain ⟨hs₂, hlast₂⟩ :=
            quiet_process hb hb1 hrun hs₁ hlast hlen hact hp
          refine ⟨⟨hs₂, hlast₂⟩, .nothing rfl ?_⟩
          -- nothing has been published before the dry run
          intro cmd hcmd
          rw [hcmd.started] at hi
          cases hi
      | @tick hw hi hd obs res dc₂ action target ho hinf hp ht =>
          obtain ⟨⟨hlen, hmot⟩, hact⟩ := hnet _ _ _ hinf
          rw [← hn, ← hnb] at hmot
          have hs₁ := sound_updateMotion hq.sound hmot
          have hlast : (updateMotion n.converter res).lastAction
              = n.converter.lastAction := by rw [updateMotion_eq]; rfl
          have hwithin : Within r
              (updateMotion n.converter res).lastAction := by
            rw [hlast]
            exact hq.last
          obtain ⟨hname, hpos⟩ := command_held hres hj hr hrobot hsized
            hs₁ hlen hp ht
          obtain ⟨hs₂, hlast₂⟩ :=
            quiet_process hb hb1 hrun hs₁ hwithin hlen hact hp
          obtain ⟨hp', -, -⟩ := hs₁.processAction hready.scales
            (hlen.trans hn.symm)
          cases hp'.symm.trans hp
          refine ⟨⟨?_, ?_⟩, .one _ rfl ⟨hname, ?_, ?_⟩ ?_⟩
          · rw [advance_converter]
            exact hs₂
          · rw [advance_converter]
            exact hlast₂
          · rw [advance_converter]
            exact hpos
          · rw [advance_initialized]
            exact hi
          · intro cmd hcmd
            refine slewed_of_held (hname.trans hcmd.name.symm)
              hcmd.position hpos ?_
            intro joint
            rw [← hlast]
            exact held_step hclip hb hb1 hj hsized hs₁ hwithin hlen hact
              joint

/-- A callback that stops has not come to publishing. -/
theorem stop_silent [Eigen ℚ] {net : Policy ℚ}
    {n : RLControllerNode ℚ ℚ} {e : Event ℚ} {f : Fault}
    (h : (step net n e).out = .error f) :
    (step net n e).log.filterMap asCommand = [] := by
  cases e with
  | jointState msg => cases h
  | imu msg => cases h
  | timer =>
      have hts := timerStop_of_error h
      show (n.timerCallback net).log.filterMap _ = []
      generalize (n.timerCallback net).log = l at hts
      cases hts <;> rfl

/-- Before the first action nothing is remembered. -/
theorem quiet_start (hr0 : 0 ≤ r) (s m : Int) :
    Quiet cfg r (start cfg s m) := by
  refine ⟨DataConverter.configure_sound cfg, ?_⟩
  intro x hx
  have hx' : x ∈ (DataConverter.init.configure cfg).lastAction := hx
  rw [DataConverter.configure_lastAction] at hx'
  rw [List.eq_of_mem_replicate hx', abs_zero]
  exact hr0

/-- The commands of every run move joint by joint no faster than the
average and the clip allow: outside residual mode, with the weight of
the average between zero and one and a model that keeps its actions
within `r`, where it answers. -/
theorem slew_limited [Eigen ℚ] (hres : cfg.useResidualAction = false)
    (hclip : 0 ≤ cfg.clipActions) (hb : 0 ≤ cfg.actionBeta)
    (hb1 : cfg.actionBeta ≤ 1) (hj : cfg.jointNames.Nodup)
    (hr : cfg.robotJointNames.Nodup) (hrobot : cfg.robotJointNames ≠ [])
    (hsized : cfg.Sized) (hr0 : 0 ≤ r) {net : Policy ℚ}
    (hnet : ∀ obs t res, net.infer obs t = .ok res →
      res.WellSized cfg.numDof cfg.numBodies ∧ Within r res.actions)
    (s m : Int) (evs : List (Event ℚ)) :
    (published (run net (start cfg s m) evs).log).IsChain
      (Slewed cfg (min (2 * cfg.actionBeta * r) (2 * cfg.clipActions)))
    := by
  rw [published_eq]
  exact Logged.run_chain asCommand (Quiet cfg r) (Published cfg) _
    (fun _ _ _ hq h => slew_step hres hclip hb hb1 hj hr hrobot hsized
      hnet hq h)
    (fun _ _ _ _ h => stop_silent h) (quiet_start hr0 s m)

end Run

/-- `crossed` with half the weight on what was remembered. -/
def averaged : BeyondMimicConfig ℚ :=
  { DataConverter.crossed with actionBeta := 1 / 2 }

/-- A model that throws the first joint from one side to the other. -/
def restless : Policy ℚ :=
  Policy.ofFun 19 fun _ t =>
    { fullResult with actions := [if t % 2 = 0 then 1 else -1, 0] }

theorem slew_limited_averaged :
    (published (run restless (start averaged 3 (-1))
        (twoReady ++ [.timer, .timer])).log).IsChain
      (Slewed averaged
        (min (2 * averaged.actionBeta * 1) (2 * averaged.clipActions)))
    := by
  have hnet : ∀ obs t res, restless.infer obs t = .ok res →
      res.WellSized averaged.numDof averaged.numBodies
        ∧ Within 1 res.actions := by
    intro obs t res h
    cases h
    refine ⟨⟨rfl, fullResult_wellSized.2⟩, ?_⟩
    intro x hx
    rcases List.mem_cons.mp hx with rfl | hx
    · split
      · exact le_of_eq abs_one
      · rw [abs_neg, abs_one]
    · rw [List.mem_singleton.mp hx, abs_zero]
      exact zero_le_one
  exact slew_limited rfl (by decide +kernel) (by decide +kernel)
    (by decide +kernel) (by decide) (by decide) (by decide) ⟨rfl, rfl⟩
    zero_le_one hnet 3 (-1) (twoReady ++ [.timer, .timer])

end RLControllerNode

end RlDeploy
