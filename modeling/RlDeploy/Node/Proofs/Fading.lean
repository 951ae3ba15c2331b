/-
What the controller did before fades.

Outside residual mode a command depends on the past through one vector
only, the remembered action. So from any point of a run the commands
are a function of what is remembered there and of the actions processed
since (`published_after`), whatever the messages, the timesteps and the
model were.

Each action processed takes the remembered vectors of two controllers
closer, by the factor `1 - action_beta`, and the clip does not pull them
apart. So two controllers that process the same actions publish commands
that approach each other, by this factor a command (`histories_fade`), and
where the model's actions settle, the commands settle (`settles`). With
`action_beta = 1` the first command is there already; with
`action_beta = 0` none ever is.
-/
import RlDeploy.Node.Proofs.Slew
import RlDeploy.Node.Proofs.Lag
import RlDeploy.Node.Proofs.Partial
import RlDeploy.Lib.Ema

namespace RlDeploy

open Lib

namespace RLControllerNode

-- ========================================================== the memory

/-- What is remembered after some more actions. -/
def after (b : ℚ) (last : List ℚ) (raws : List (List ℚ)) : List ℚ :=
  raws.foldl (List.zipWith (emaStep b)) last

/-- The remembered action of a joint, `0` for a joint the model does not
have. -/
def recalled (cfg : BeyondMimicConfig ℚ) (last : List ℚ)
    (joint : String) : ℚ :=
  (valueAt cfg.jointNames last joint).getD 0

variable {cfg : BeyondMimicConfig ℚ}

theorem after_snoc (b : ℚ) (last : List ℚ) (raws : List (List ℚ))
    (raw : List ℚ) :
    after b last (raws ++ [raw])
      = List.zipWith (emaStep b) (after b last raws) raw := by
  unfold after
  rw [List.foldl_append]
  rfl

/-- `processAction` remembers the next vector. -/
theorem smoothed_eq {dc : DataConverter ℚ}
    (hs : DataConverter.Sound (DataConverter.init.configure cfg) dc)
    {raw : List ℚ} (hraw : raw.length = cfg.numDof) :
    dc.smoothed raw
      = List.zipWith (emaStep cfg.actionBeta) dc.lastAction raw := by
  have hn := DataConverter.configure_numDof DataConverter.init cfg
  have hdof : dc.numDof = cfg.numDof := hs.setup.joints
  obtain ⟨k, hcfg⟩ := hs.setup.config
  have hlast : dc.lastAction.take dc.numDof = dc.lastAction :=
    List.take_of_length_le (by rw [hs.last, hdof, hn])
  have hraw' : raw.take dc.numDof = raw :=
    List.take_of_length_le (by rw [hraw, hdof])
  unfold DataConverter.smoothed
  rw [hlast, hraw', hcfg]
  rfl

/-- Entry by entry the memory is a moving average. -/
theorem after_getElem? (b : ℚ) : ∀ (raws : List (List ℚ))
    (last : List ℚ) (i : Nat) (x : ℚ), last[i]? = some x →
    (∀ raw ∈ raws, raw.length = last.length) →
    (after b last raws)[i]?
      = some (emaFrom b x (raws.map fun raw => raw.getD i 0)) := by
  intro raws
  induction raws with
  | nil => intro last i x hx _; exact hx
  | cons raw raws ih =>
      intro last i x hx hlen
      have hraw : raw.length = last.length := hlen raw List.mem_cons_self
      have hlt : i < last.length := (List.getElem?_eq_some_iff.mp hx).1
      have hr : raw[i]? = some (raw.getD i 0) := by
        rw [List.getD_eq_getElem?_getD,
          List.getElem?_eq_getElem (hraw ▸ hlt)]
        rfl
      show (after b (List.zipWith (emaStep b) last raw) raws)[i]? = _
      rw [ih (List.zipWith (emaStep b) last raw) i
        (emaStep b x (raw.getD i 0)) ?_ ?_]
      · rfl
      · rw [List.getElem?_zipWith, hx, hr]
      · intro raw' hraw'
        rw [hlen raw' (List.mem_cons_of_mem _ hraw'),
          List.length_zipWith, hraw, min_self]

/-- Two memories after the same actions: their distance has faded by one
factor for each. -/
theorem recalled_after (hj : cfg.jointNames.Nodup) {last last' : List ℚ}
    (hlast : last.length = cfg.numDof)
    (hlast' : last'.length = cfg.numDof) {raws : List (List ℚ)}
    (hraws : ∀ raw ∈ raws, raw.length = cfg.numDof) (b : ℚ)
    (joint : String) :
    recalled cfg (after b last raws) joint
        - recalled cfg (after b last' raws) joint
      = (1 - b) ^ raws.length
        * (recalled cfg last joint - recalled cfg last' joint) := by
  by_cases hmem : joint ∈ cfg.jointNames
  case neg =>
    unfold recalled
    rw [valueAt_eq_none hmem, valueAt_eq_none hmem, valueAt_eq_none hmem,
      valueAt_eq_none hmem, Option.getD_none, sub_self, mul_zero]
  obtain ⟨i, hi⟩ := List.mem_iff_getElem?.mp hmem
  have hlt : i < cfg.numDof := (List.getElem?_eq_some_iff.mp hi).1
  obtain ⟨x, hx⟩ : ∃ x, last[i]? = some x :=
    ⟨_, List.getElem?_eq_getElem (by rw [hlast]; exact hlt)⟩
  obtain ⟨y, hy⟩ : ∃ y, last'[i]? = some y :=
    ⟨_, List.getElem?_eq_getElem (by rw [hlast']; exact hlt)⟩
  have hx' := after_getElem? b raws last i x hx
    fun raw hraw => (hraws raw hraw).trans hlast.symm
  have hy' := after_getElem? b raws last' i y hy
    fun raw hraw => (hraws raw hraw).trans hlast'.symm
  unfold recalled
  rw [valueAt_of_nodup hj hi, valueAt_of_nodup hj hi,
    valueAt_of_nodup hj hi, valueAt_of_nodup hj hi, hx, hy, hx', hy']
  show emaFrom b x _ - emaFrom b y _ = _ * (x - y)
  rw [emaFrom_sub, List.length_map]

theorem after_length {b : ℚ} {last : List ℚ}
    (hlast : last.length = cfg.numDof) {raws : List (List ℚ)}
    (hraws : ∀ raw ∈ raws, raw.length = cfg.numDof) :
    (after b last raws).length = cfg.numDof := by
  induction raws using List.reverseRecOn with
  | nil => exact hlast
  | append_singleton raws raw ih =>
      rw [after_snoc, List.length_zipWith,
        ih fun raw' h => hraws raw' (List.mem_append_left _ h),
        hraws raw (List.mem_append_right _ List.mem_cons_self), min_self]

/-- What a joint is held at is no further apart than what is remembered
of it, times its scale. -/
theorem abs_held_sub_le (hclip : 0 ≤ cfg.clipActions)
    (hj : cfg.jointNames.Nodup) (hsized : cfg.Sized)
    {last last' : List ℚ} (hlast : last.length = cfg.numDof)
    (hlast' : last'.length = cfg.numDof) (joint : String) :
    |held cfg last joint - held cfg last' joint|
      ≤ |recalled cfg last joint - recalled cfg last' joint|
        * |gain cfg joint| := by
  by_cases hmem : joint ∈ cfg.jointNames
  case neg =>
    rw [held_unmatched hmem, held_unmatched hmem, sub_self, abs_zero]
    exact mul_nonneg (abs_nonneg _) (abs_nonneg _)
  obtain ⟨i, hi⟩ := List.mem_iff_getElem?.mp hmem
  have hlt : i < cfg.numDof := (List.getElem?_eq_some_iff.mp hi).1
  obtain ⟨d, hd⟩ : ∃ d, cfg.defaultDofPos[i]? = some d :=
    ⟨_, List.getElem?_eq_getElem (by
      rw [hsized.defaultDofPos]; exact hlt)⟩
  obtain ⟨k, hk⟩ : ∃ k, cfg.actionScales[i]? = some k :=
    ⟨_, List.getElem?_eq_getElem (by
      rw [hsized.actionScales]; exact hlt)⟩
  obtain ⟨x, hx⟩ : ∃ x, last[i]? = some x :=
    ⟨_, List.getElem?_eq_getElem (by rw [hlast]; exact hlt)⟩
  obtain ⟨y, hy⟩ : ∃ y, last'[i]? = some y :=
    ⟨_, List.getElem?_eq_getElem (by rw [hlast']; exact hlt)⟩
  have hgain : gain cfg joint = k := by
    unfold gain
    rw [valueAt_of_nodup hj hi, hk]
    rfl
  have hrx : recalled cfg last joint = x := by
    unfold recalled
    rw [valueAt_of_nodup hj hi, hx]
    rfl
  have hry : recalled cfg last' joint = y := by
    unfold recalled
    rw [valueAt_of_nodup hj hi, hy]
    rfl
  rw [held_matched hj hi hd hx hk, held_matched hj hi hd hy hk, hgain,
    hrx, hry, add_sub_add_left_eq_sub, ← sub_mul, abs_mul]
  exact mul_le_mul_of_nonneg_right (abs_clamp_sub_le hclip)
    (abs_nonneg k)

-- ============================================================ the run

/-- A function of the parts of a list that start it, one longer. -/
theorem prefixes_snoc {α β : Type} (f : List α → β) (ps : List α)
    (p : α) :
    (List.range (ps ++ [p]).length).map
        (fun k => f ((ps ++ [p]).take (k + 1)))
      = (List.range ps.length).map (fun k => f (ps.take (k + 1)))
        ++ [f (ps ++ [p])] := by
  have hlen : (ps ++ [p]).length = ps.length + 1 := by
    rw [List.length_append, List.length_singleton]
  rw [hlen, List.range_succ, List.map_append, List.map_singleton]
  congr 1
  · apply List.map_congr_left
    intro k hk
    rw [List.take_append_of_le_length
      (Nat.succ_le_of_lt (List.mem_range.mp hk))]
  · rw [List.take_of_length_le hlen.le]

/-- The commands of a run from a node that remembers `last`: one for each
action processed, and each what the controller holds after it. -/
structure Holds (cfg : BeyondMimicConfig ℚ) (last : List ℚ)
    (log : List (Act ℚ ℚ)) : Prop where
  sized : ∀ raw ∈ processedActions log, raw.length = cfg.numDof
  name : ∀ cmd ∈ published log, cmd.name
    = cfg.robotJointNames.map (DataConverter.init.configure cfg).wireName
  position : (published log).map JointState.position
    = (List.range (processedActions log).length).map fun k =>
      cfg.robotJointNames.map (held cfg
        (after cfg.actionBeta last ((processedActions log).take (k + 1))))

/-- The node at the end of such a run. -/
structure Recalls (cfg : BeyondMimicConfig ℚ) (last : List ℚ)
    (log : List (Act ℚ ℚ)) (n : RLControllerNode ℚ ℚ) : Prop where
  sound : DataConverter.Sound (DataConverter.init.configure cfg)
    n.converter
  started : n.initialized = true
  memory : n.converter.lastAction
    = after cfg.actionBeta last (processedActions log)

theorem Holds.nil (last : List ℚ) : Holds cfg last [] where
  sized _ h := by cases h
  name _ h := by cases h
  position := rfl

/-- One control tick of such a run. -/
theorem Holds.tick {last : List ℚ} {log : List (Act ℚ ℚ)}
    (h : Holds cfg last log) {obs raw : List ℚ} {t : Int}
    {cmd : JointState ℚ} (hraw : raw.length = cfg.numDof)
    (hname : cmd.name = cfg.robotJointNames.map
      (DataConverter.init.configure cfg).wireName)
    (hpos : cmd.position = cfg.robotJointNames.map (held cfg
      (after cfg.actionBeta last (processedActions log ++ [raw])))) :
    Holds cfg last
      (log ++ [.infer obs t, .process raw, .publish cmd]) := by
  have hproc : processedActions
      (log ++ [.infer obs t, .process raw, .publish cmd])
      = processedActions log ++ [raw] := List.filterMap_append ..
  have hpub : published
      (log ++ [.infer obs t, .process raw, .publish cmd])
      = published log ++ [cmd] := published_append ..
  refine ⟨?_, ?_, ?_⟩
  · rw [hproc]
    intro raw' hraw'
    rcases List.mem_append.mp hraw' with hraw' | hraw'
    · exact h.sized raw' hraw'
    · rw [List.mem_singleton.mp hraw', hraw]
  · rw [hpub]
    intro cmd' hcmd'
    rcases List.mem_append.mp hcmd' with hcmd' | hcmd'
    · exact h.name cmd' hcmd'
    · rw [List.mem_singleton.mp hcmd', hname]
  · rw [hpub, hproc, List.map_append, h.position, List.map_singleton,
      hpos, ← prefixes_snoc (fun raws => cfg.robotJointNames.map
        (held cfg (after cfg.actionBeta last raws)))]

/-- A run that a callback ended is one that its last action left off. -/
theorem Holds.quiet {last : List ℚ} {log l : List (Act ℚ ℚ)}
    (h : Holds cfg last log) (hp : processedActions l = [])
    (hc : published l = []) : Holds cfg last (log ++ l) := by
  have hproc : processedActions (log ++ l) = processedActions log := by
    unfold processedActions at hp ⊢
    rw [List.filterMap_append, hp, List.append_nil]
  have hpub : published (log ++ l) = published log := by
    rw [published_append, hc, List.append_nil]
  refine ⟨?_, ?_, ?_⟩
  · rw [hproc]; exact h.sized
  · rw [hpub]; exact h.name
  · rw [hpub, hproc]; exact h.position

section Run

variable [Eigen ℚ] {net : Policy ℚ} {n n' : RLControllerNode ℚ ℚ}

/-- One callback of a well-sized node that has started. -/
theorem recalls_step (hres : cfg.useResidualAction = false)
    (hj : cfg.jointNames.Nodup) (hr : cfg.robotJointNames.Nodup)
    (hrobot : cfg.robotJointNames ≠ []) (hsized : cfg.Sized)
    (hnet : net.FullSize cfg.numDof cfg.numBodies) {last : List ℚ}
    {log : List (Act ℚ ℚ)}
    (hh : Holds cfg last log) (hm : Recalls cfg last log n)
    {e : Event ℚ} (h : (step net n e).out = .ok n') :
    Holds cfg last (log ++ (step net n e).log)
      ∧ Recalls cfg last (log ++ (step net n e).log) n' := by
  have hn := DataConverter.configure_numDof DataConverter.init cfg
  have hnb := DataConverter.configure_numBodies DataConverter.init cfg
  have hready := DataConverter.configure_ready DataConverter.init
    (hsized.runnable (Or.inr hrobot))
  have hquiet : (step net n e).log = [] →
      n'.converter = n.converter → n'.initialized = n.initialized →
      Holds cfg last (log ++ (step net n e).log)
        ∧ Recalls cfg last (log ++ (step net n e).log) n' := by
    intro hlog hconv hinit
    rw [hlog, List.append_nil]
    exact ⟨hh, by rw [hconv]; exact hm.sound,
      by rw [hinit]; exact hm.started, by rw [hconv]; exact hm.memory⟩
  cases e with
  | jointState msg => cases h; exact hquiet rfl rfl rfl
  | imu msg => cases h; exact hquiet rfl rfl rfl
  | timer =>
      have hts := timerStep_of_ok h
      show Holds cfg last (log ++ (n.timerCallback net).log)
        ∧ Recalls cfg last (log ++ (n.timerCallback net).log) n'
      have hlog : (step net n .timer).log
        = (n.timerCallback net).log := rfl
      rw [hlog] at hquiet
      generalize (n.timerCallback net).log = l at hts hquiet
      cases hts with
      | waiting => exact hquiet rfl rfl rfl
      | done => exact hquiet rfl rfl rfl
      | init _ hi => rw [hm.started] at hi; cases hi
      | @tick hw hi hd obs res dc₂ action target ho hinf hp ht =>
          obtain ⟨hlen, hmot⟩ := hnet _ _ _ hinf
          rw [← hn, ← hnb] at hmot
          have hs₁ := sound_updateMotion hm.sound hmot
          have hlast : (updateMotion n.converter res).lastAction
              = n.converter.lastAction := by rw [updateMotion_eq]; rfl
          obtain ⟨hname, hpos⟩ := command_held hres hj hr hrobot hsized
            hs₁ hlen hp ht
          obtain ⟨hp', hs₂, -⟩ := hs₁.processAction hready.scales
            (hlen.trans hn.symm)
          cases hp'.symm.trans hp
          have hproc : processedActions (log ++ [.infer obs n.timestep,
              .process res.actions, .publish
                (({ updateMotion n.converter res with
                    lastAction := (updateMotion n.converter res).smoothed
                      res.actions } : DataConverter ℚ).actionToJointCmd
                  target)])
              = processedActions log ++ [res.actions] :=
            List.filterMap_append ..
          have hmemory : (updateMotion n.converter res).smoothed
              res.actions
              = after cfg.actionBeta last
                (processedActions log ++ [res.actions]) := by
            rw [smoothed_eq hs₁ hlen, hlast, hm.memory, after_snoc]
          refine ⟨hh.tick hlen hname ?_, ?_, ?_, ?_⟩
          · rw [← hmemory]
            exact hpos
          · rw [advance_converter]
            exact hs₂
          · rw [advance_initialized]
            exact hi
          · rw [advance_converter, hproc]
            exact hmemory

/-- What a node publishes from some point on is a function of what it
remembers there and of the actions it processes since. -/
theorem published_after (hres : cfg.useResidualAction = false)
    (hj : cfg.jointNames.Nodup) (hr : cfg.robotJointNames.Nodup)
    (hrobot : cfg.robotJointNames ≠ []) (hsized : cfg.Sized)
    (hnet : net.FullSize cfg.numDof cfg.numBodies)
    (hs : DataConverter.Sound (DataConverter.init.configure cfg)
      n.converter) (hi : n.initialized = true) (evs : List (Event ℚ)) :
    Holds cfg n.converter.lastAction (run net n evs).log := by
  have hready := DataConverter.configure_ready DataConverter.init
    (hsized.runnable (Or.inr hrobot))
  have hnet' := hnet
  rw [← DataConverter.configure_numDof DataConverter.init cfg,
    ← DataConverter.configure_numBodies DataConverter.init cfg] at hnet'
  have hruns : ∀ {past : List (Event ℚ)} {n₁ : RLControllerNode ℚ ℚ},
      (run net n past).out = .ok n₁ →
      Holds cfg n.converter.lastAction (run net n past).log
        ∧ Recalls cfg n.converter.lastAction (run net n past).log n₁ := by
    intro past n₁ hpast
    exact Logged.run_past
      (fun _ log n₁ => Holds cfg n.converter.lastAction log
        ∧ Recalls cfg n.converter.lastAction log n₁)
      ⟨Holds.nil _, hs, hi, rfl⟩
      (fun _ hinv hstep => recalls_step hres hj hr hrobot hsized hnet
        hinv.1 hinv.2 hstep) hpast
  cases hout : (run net n evs).out with
  | ok n₁ => exact (hruns hout).1
  | error f =>
      obtain ⟨past, e, later, n₁, -, hpast, hfail, hlog⟩ :=
        Logged.run_stopped hout
      obtain ⟨hh, hm⟩ := hruns hpast
      have hstop : processedActions (step net n₁ e).log = []
          ∧ published (step net n₁ e).log = [] := by
        cases e with
        | jointState msg => cases hfail
        | imu msg => cases hfail
        | timer =>
            exact (stop_of_model hready hnet' hm.sound
              (timerStop_of_error hfail)).2
      have hruns' : (run net n evs).log
          = (run net n past).log ++ (step net n₁ e).log := hlog
      rw [hruns']
      exact hh.quiet hstop.1 hstop.2

/-- Two commands whose joints are no further apart than a factor of what
two memories recall of them. -/
structure Faded (cfg : BeyondMimicConfig ℚ) (factor : ℚ)
    (last last' : List ℚ) (cmd cmd' : JointState ℚ) : Prop where
  name : cmd'.name = cmd.name
  near : ∀ (c : Nat) (joint : String),
    cfg.robotJointNames[c]? = some joint →
    ∃ p p', cmd.position[c]? = some p ∧ cmd'.position[c]? = some p'
      ∧ |p - p'| ≤ factor
        * |recalled cfg last joint - recalled cfg last' joint|
        * |gain cfg joint|

omit [Eigen ℚ] in
/-- The `k`th command of a run from a node that remembers `last`. -/
theorem Holds.getElem? {last : List ℚ} {log : List (Act ℚ ℚ)}
    (h : Holds cfg last log) {k : Nat} {cmd : JointState ℚ}
    (hk : (published log)[k]? = some cmd) :
    k < (processedActions log).length
      ∧ cmd.position = cfg.robotJointNames.map (held cfg
        (after cfg.actionBeta last
          ((processedActions log).take (k + 1)))) := by
  have hpos : ((published log).map JointState.position)[k]?
      = some cmd.position := by
    rw [List.getElem?_map, hk]
    rfl
  rw [h.position, List.getElem?_map] at hpos
  obtain ⟨j, hj, hcmd⟩ := Option.map_eq_some_iff.mp hpos
  obtain ⟨hlt, rfl⟩ := List.getElem?_eq_some_iff.mp hj
  rw [List.getElem_range] at hcmd
  rw [List.length_range] at hlt
  exact ⟨hlt, hcmd.symm⟩

omit [Eigen ℚ] in
/-- Commands after the same actions, from two memories. -/
theorem faded_of_held (hclip : 0 ≤ cfg.clipActions)
    (hj : cfg.jointNames.Nodup) (hsized : cfg.Sized)
    {last last' : List ℚ} (hlast : last.length = cfg.numDof)
    (hlast' : last'.length = cfg.numDof) {raws : List (List ℚ)}
    (hraws : ∀ raw ∈ raws, raw.length = cfg.numDof) {k : Nat}
    (hk : k < raws.length) {cmd cmd' : JointState ℚ}
    (hname : cmd'.name = cmd.name)
    (hpos : cmd.position = cfg.robotJointNames.map (held cfg
      (after cfg.actionBeta last (raws.take (k + 1)))))
    (hpos' : cmd'.position = cfg.robotJointNames.map (held cfg
      (after cfg.actionBeta last' (raws.take (k + 1))))) :
    Faded cfg (|1 - cfg.actionBeta| ^ (k + 1)) last last' cmd cmd' := by
  have hsome : ∀ raw ∈ raws.take (k + 1), raw.length = cfg.numDof :=
    fun raw hraw => hraws raw (List.mem_of_mem_take hraw)
  refine ⟨hname, ?_⟩
  intro c joint hc
  have hfade := recalled_after hj hlast hlast' hsome cfg.actionBeta joint
  have hheld := abs_held_sub_le hclip hj hsized
    (after_length hlast hsome : (after cfg.actionBeta _ _).length = _)
    (after_length hlast' hsome : (after cfg.actionBeta _ _).length = _)
    joint
  rw [hfade, List.length_take, min_eq_left (Nat.succ_le_of_lt hk),
    abs_mul, abs_pow] at hheld
  refine ⟨_, _, ?_, ?_, hheld⟩
  · rw [hpos, List.getElem?_map, hc]
    rfl
  · rw [hpos', List.getElem?_map, hc]
    rfl

/-- Two nodes of one configuration that from some point on process the
same actions, whatever their models, their messages and their histories:
their commands go to the same joints, and the `k`th of them are apart by
what they remembered of a joint differently, times its scale and
`|1 - action_beta|` to the `k + 1`. -/
theorem histories_fade (hres : cfg.useResidualAction = false)
    (hclip : 0 ≤ cfg.clipActions) (hj : cfg.jointNames.Nodup)
    (hr : cfg.robotJointNames.Nodup) (hrobot : cfg.robotJointNames ≠ [])
    (hsized : cfg.Sized) {net net' : Policy ℚ}
    (hnet : net.FullSize cfg.numDof cfg.numBodies)
    (hnet' : net'.FullSize cfg.numDof cfg.numBodies)
    {s m s' m' : Int} {past past' : List (Event ℚ)}
    {n n' : RLControllerNode ℚ ℚ}
    (hn : (run net (start cfg s m) past).out = .ok n)
    (hn' : (run net' (start cfg s' m') past').out = .ok n')
    (hi : n.initialized = true) (hi' : n'.initialized = true)
    {evs evs' : List (Event ℚ)}
    (hsame : processedActions (run net n evs).log
      = processedActions (run net' n' evs').log) :
    (published (run net n evs).log).length
        = (published (run net' n' evs').log).length
      ∧ ∀ k cmd cmd', (published (run net n evs).log)[k]? = some cmd →
        (published (run net' n' evs').log)[k]? = some cmd' →
        Faded cfg (|1 - cfg.actionBeta| ^ (k + 1)) n.converter.lastAction
          n'.converter.lastAction cmd cmd' := by
  have hdof := DataConverter.configure_numDof DataConverter.init cfg
  have hs := run_sound (hsized.runnable (Or.inr hrobot)) hnet hn
  have hs' := run_sound (hsized.runnable (Or.inr hrobot)) hnet' hn'
  have h := published_after hres hj hr hrobot hsized hnet hs hi evs
  have h' := published_after hres hj hr hrobot hsized hnet' hs' hi' evs'
  constructor
  · have hlen := congrArg List.length h.position
    have hlen' := congrArg List.length h'.position
    rw [List.length_map, List.length_map, List.length_range] at hlen hlen'
    rw [hlen, hlen', hsame]
  · intro k cmd cmd' hk hk'
    obtain ⟨hlt, hpos⟩ := h.getElem? hk
    obtain ⟨-, hpos'⟩ := h'.getElem? hk'
    rw [← hsame] at hpos'
    have hname := h.name cmd (List.mem_of_getElem? hk)
    have hname' := h'.name cmd' (List.mem_of_getElem? hk')
    exact faded_of_held hclip hj hsized (hs.last.trans hdof)
      (hs'.last.trans hdof) h.sized hlt (hname'.trans hname.symm) hpos
      hpos'

omit [Eigen ℚ] in
/-- Averaging a vector with itself leaves it. -/
theorem after_const (b : ℚ) {goal : List ℚ} {raws : List (List ℚ)}
    (h : ∀ raw ∈ raws, raw = goal) : after b goal raws = goal := by
  induction raws with
  | nil => rfl
  | cons raw raws ih =>
      have hraw : raw = goal := h raw List.mem_cons_self
      have hstep : List.zipWith (emaStep b) goal goal = goal := by
        rw [List.zipWith_self]
        apply List.map_id''
        intro x
        unfold emaStep
        ring
      show after b (List.zipWith (emaStep b) goal raw) raws = goal
      rw [hraw, hstep]
      exact ih fun raw' hraw' => h raw' (List.mem_cons_of_mem _ hraw')

/-- Where the model's actions settle, the commands settle on what the
controller holds them at, by the factor `|1 - action_beta|` a command. -/
theorem settles (hres : cfg.useResidualAction = false)
    (hclip : 0 ≤ cfg.clipActions) (hj : cfg.jointNames.Nodup)
    (hr : cfg.robotJointNames.Nodup) (hrobot : cfg.robotJointNames ≠ [])
    (hsized : cfg.Sized) (hnet : net.FullSize cfg.numDof cfg.numBodies)
    {s m : Int} {past : List (Event ℚ)}
    (hn : (run net (start cfg s m) past).out = .ok n)
    (hi : n.initialized = true) {goal : List ℚ}
    (hgoal : goal.length = cfg.numDof) {evs : List (Event ℚ)}
    (hsettled : ∀ raw ∈ processedActions (run net n evs).log,
      raw = goal) :
    ∀ k cmd, (published (run net n evs).log)[k]? = some cmd →
      ∀ (c : Nat) (joint : String),
        cfg.robotJointNames[c]? = some joint →
        ∃ p, cmd.position[c]? = some p
          ∧ |p - held cfg goal joint| ≤ |1 - cfg.actionBeta| ^ (k + 1)
            * |recalled cfg n.converter.lastAction joint
              - recalled cfg goal joint| * |gain cfg joint| := by
  have hdof := DataConverter.configure_numDof DataConverter.init cfg
  have hs := run_sound (hsized.runnable (Or.inr hrobot)) hnet hn
  have h := published_after hres hj hr hrobot hsized hnet hs hi evs
  intro k cmd hk c joint hc
  obtain ⟨hlt, hpos⟩ := h.getElem? hk
  -- the settled command, as a command of its own
  have hrest : (cfg.robotJointNames.map (held cfg goal))
      = cfg.robotJointNames.map (held cfg (after cfg.actionBeta goal
        ((processedActions (run net n evs).log).take (k + 1)))) := by
    rw [after_const cfg.actionBeta
      fun raw hraw => hsettled raw (List.mem_of_mem_take hraw)]
  have hfaded : Faded cfg (|1 - cfg.actionBeta| ^ (k + 1))
      n.converter.lastAction goal cmd
      { cmd with position := cfg.robotJointNames.map (held cfg goal) } :=
    faded_of_held hclip hj hsized (hs.last.trans hdof) hgoal h.sized hlt
      rfl hpos hrest
  obtain ⟨p, p', hp, hp', hnear⟩ := hfaded.near c joint hc
  rw [List.getElem?_map, hc] at hp'
  cases hp'
  exact ⟨p, hp, hnear⟩

end Run

/-- A model that moves the first joint at timestep `3`, and rests from
then on. -/
def kicked : Policy ℚ :=
  Policy.ofFun 19 fun _ t =>
    { fullResult with actions := [if t = 3 then 1 else 0, 0] }

theorem kicked_fullSize :
    kicked.FullSize averaged.numDof averaged.numBodies := by
  intro obs t r h
  cases h
  exact ⟨rfl, fullResult_wellSized.2⟩

/-- A model that rests. -/
def resting : Policy ℚ := Policy.ofFun 19 fun _ _ => fullResult

theorem resting_fullSize :
    resting.FullSize averaged.numDof averaged.numBodies := by
  intro obs t r h
  cases h
  exact fullResult_wellSized

/-- Two ticks of the models after their dry runs and a first tick: what
the kick left is halved twice. -/
theorem histories_fade_kicked :
    ∃ n n' : RLControllerNode ℚ ℚ,
      (run kicked (start averaged 3 (-1)) twoReady).out = .ok n
      ∧ (run resting (start averaged 8 (-1)) twoReady).out = .ok n'
      ∧ (published (run kicked n [.timer, .timer]).log).length
        = (published (run resting n' [.timer, .imu ⟨⟨1, 0, 0, 0⟩,
          ⟨0, 0, 0⟩⟩, .timer]).log).length
      ∧ ∀ k cmd cmd',
        (published (run kicked n [.timer, .timer]).log)[k]? = some cmd →
        (published (run resting n' [.timer, .imu ⟨⟨1, 0, 0, 0⟩,
          ⟨0, 0, 0⟩⟩, .timer]).log)[k]? = some cmd' →
        Faded averaged (|1 - averaged.actionBeta| ^ (k + 1))
          n.converter.lastAction n'.converter.lastAction cmd cmd' := by
  obtain ⟨n, hn, hv⟩ := map_ok (show
    (run kicked (start averaged 3 (-1)) twoReady).out.map (fun n =>
      (n.initialized, processedActions (run kicked n [.timer,
        .timer]).log)) = .ok (true, [[0, 0], [0, 0]]) by decide +kernel)
  obtain ⟨n', hn', hv'⟩ := map_ok (show
    (run resting (start averaged 8 (-1)) twoReady).out.map (fun n' =>
      (n'.initialized, processedActions (run resting n' [.timer, .imu
        ⟨⟨1, 0, 0, 0⟩, ⟨0, 0, 0⟩⟩, .timer]).log))
      = .ok (true, [[0, 0], [0, 0]]) by decide +kernel)
  obtain ⟨hi, hacts⟩ := Prod.mk.inj hv
  obtain ⟨hi', hacts'⟩ := Prod.mk.inj hv'
  exact ⟨n, n', hn, hn', histories_fade rfl (by decide +kernel)
    (by decide) (by decide) (by decide) ⟨rfl, rfl⟩ kicked_fullSize
    resting_fullSize hn hn' hi hi' (hacts.trans hacts'.symm)⟩

/-- The kicked joint settles back. -/
theorem settles_kicked :
    ∃ n : RLControllerNode ℚ ℚ,
      (run kicked (start averaged 3 (-1)) twoReady).out = .ok n
      ∧ ∀ k cmd,
        (published (run kicked n [.timer, .timer]).log)[k]? = some cmd →
        ∀ (c : Nat) (joint : String),
          averaged.robotJointNames[c]? = some joint →
          ∃ p, cmd.position[c]? = some p
            ∧ |p - held averaged [0, 0] joint|
              ≤ |1 - averaged.actionBeta| ^ (k + 1)
                * |recalled averaged n.converter.lastAction joint
                  - recalled averaged [0, 0] joint|
                * |gain averaged joint| := by
  obtain ⟨n, hn, hv⟩ := map_ok (show
    (run kicked (start averaged 3 (-1)) twoReady).out.map (fun n =>
      (n.initialized, processedActions (run kicked n [.timer,
        .timer]).log)) = .ok (true, [[0, 0], [0, 0]]) by decide +kernel)
  obtain ⟨hi, hacts⟩ := Prod.mk.inj hv
  have hsettled : ∀ raw ∈ processedActions
      (run kicked n [.timer, .timer]).log, raw = [0, 0] := by
    rw [hacts]
    decide
  exact ⟨n, hn, settles rfl (by decide +kernel) (by decide) (by decide)
    (by decide) ⟨rfl, rfl⟩ kicked_fullSize hn hi rfl hsettled⟩

end RLControllerNode

end RlDeploy
