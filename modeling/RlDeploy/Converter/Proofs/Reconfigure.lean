/-
What `configure` leaves behind of the configurations before it.

# The members

`configure` assigns the configuration and the last action, and with
robot joint names it rebuilds both adapters. The motion command and the
alignment it does not touch, and they are set again by the next calls.
The reverse name map is the exception: entries are only added to it, so
a wire name given by an earlier configuration stays for every model name
the new `joint_name_map` does not mention. (`DoFAdapter::build` clears
its lists first.)

# The condition

`translation hist n` is what a history of calls has left in the map for
the name `n`, read off the history alone (`life_names`). A converter
configured again is then a fresh one with another reverse map
(`Renamed`), and every call keeps that relation. So nothing tells the
two apart if and only if each name without an entry of its own is still
its own wire name (`replaces_iff`): for callers that do not configure
again, each such name of the robot's joints.
-/
import RlDeploy.Converter.Proofs.Run

namespace RlDeploy

open Lib

variable {F D : Type} [Scalar F D]

namespace DataConverter

/-- The call is not a `configure`. -/
def Call.IsOp : Call F D → Prop
  | .configure _ => False
  | .op _ => True

/-- The wire name that the calls `hist` have left in a fresh converter's
reverse map for a model name: that of the last `configure` with robot
joint names whose `joint_name_map` has the name. -/
def translation (hist : List (Call F D)) (n : String) : Option String :=
  hist.foldl (fun t c => match c with
    | .configure cfg =>
        if cfg.robotJointNames = [] then t
        else (lastKey cfg.jointNameMap.toList n).or t
    | .op _ => t) none

/-- No later sequence of calls in `Adm` tells the two converters apart,
once both have the same motion command and alignment base: they return
the same values, and if a call fails, both fail there with one fault. -/
def Indistinguishable [Eigen F] (Adm : Call F D → Prop)
    (dc dc' : DataConverter F) : Prop :=
  ∀ (cmd : MotionCommand F) (quat : Quat F) (pos : Vec3 F)
    (yawOnly xyOnly : Bool) (opening later : List (Call F D)),
    opening.Perm [.op (.setMotionCommand cmd),
      .op (.setBase quat pos yawOnly xyOnly)] →
    (∀ c ∈ later, Adm c) →
    (life dc (opening ++ later)).log = (life dc' (opening ++ later)).log
      ∧ (life dc (opening ++ later)).out.map (fun _ => ())
        = (life dc' (opening ++ later)).out.map (fun _ => ())

-- ============================================== what a history leaves

omit [Scalar F D] in
theorem translation_snoc (hist : List (Call F D)) (c : Call F D)
    (n : String) :
    translation (hist ++ [c]) n = match c with
      | .configure cfg =>
          if cfg.robotJointNames = [] then translation hist n
          else (lastKey cfg.jointNameMap.toList n).or (translation hist n)
      | .op _ => translation hist n := by
  unfold translation
  rw [List.foldl_append]
  rfl

/-- The reverse map of a converter, read off the calls made on it. -/
theorem life_names [Eigen F] {hist : List (Call F D)}
    {dc : DataConverter F} (h : (life init hist).out = .ok dc) :
    dc.lastAction.length = dc.numDof
      ∧ ∀ n, dc.modelToRos2Names[n]? = translation hist n := by
  refine Logged.run_past (fun (hist : List (Call F D)) _ dc =>
    dc.lastAction.length = dc.numDof
      ∧ ∀ n, dc.modelToRos2Names[n]? = translation hist n)
    ⟨rfl, fun n => rfl⟩ ?_ h
  rintro hist dc₁ c dc₂ - ⟨hlast, hnames⟩ hc
  cases c with
  | configure cfg =>
      cases hc
      refine ⟨configure_lastLength dc₁ cfg, fun n => ?_⟩
      rw [translation_snoc]
      dsimp only
      by_cases hne : cfg.robotJointNames = []
      · rw [if_pos hne, (configure_oneToOne dc₁ hne).2]
        exact hnames n
      · rw [if_neg hne, configure_names dc₁ hne, hnames n]
  | op op =>
      obtain ⟨hset, hlen⟩ := step_keeps (SameSetup.refl dc₁) hlast hc
      refine ⟨by rw [hset.numDof, hlen], fun n => ?_⟩
      rw [translation_snoc, hset.names]
      exact hnames n

-- ============================================= configuring once more

/-- A wire name is that of a fresh converter unless the new map does not
give it and the old one does. -/
theorem configure_wireName_iff (dc : DataConverter F)
    {cfg : BeyondMimicConfig F} (h : cfg.robotJointNames ≠ [])
    (n : String) :
    (dc.configure cfg).wireName n = (init.configure cfg).wireName n
      ↔ ((∀ w, (w, n) ∉ cfg.jointNameMap.toList) →
          dc.modelToRos2Names[n]?.getD n = n) := by
  have hinit : (init : DataConverter F).modelToRos2Names[n]? = none := rfl
  rw [configure_wireName dc h, configure_wireName init h, hinit,
    ← lastKey_eq_none_iff]
  cases lastKey cfg.jointNameMap.toList n with
  | none => simp
  | some w => simp

/-- Configuring with one configuration twice gives each name the wire
name that configuring once gives it. -/
theorem configure_twice_wireName (dc : DataConverter F)
    {cfg : BeyondMimicConfig F} (h : cfg.robotJointNames ≠ [])
    (n : String) :
    ((dc.configure cfg).configure cfg).wireName n
      = (dc.configure cfg).wireName n := by
  rw [configure_wireName _ h, configure_names dc h,
    configure_wireName dc h]
  cases lastKey cfg.jointNameMap.toList n <;> rfl

-- ======================================================= the relation

/-- Two converters that differ in the reverse map alone, which gives the
names in `S` the same wire names; the controlled joints are in `S`. -/
structure Renamed (S : String → Prop) (dc dc' : DataConverter F) :
    Prop where
  members : dc' = { dc with modelToRos2Names := dc'.modelToRos2Names }
  wireName : ∀ n, S n → dc.wireName n = dc'.wireName n
  controlled : ∀ n ∈ dc.cfg.controlledNames, S n

/-- The message is read under the same names. -/
theorem Renamed.controlledVals {S : String → Prop}
    {dc dc' : DataConverter F} (h : Renamed S dc dc')
    (names : List String) (data : List D) :
    dc.controlledVals names data = dc'.controlledVals names data := by
  have hcfg : dc'.cfg = dc.cfg := by rw [h.members]
  unfold DataConverter.controlledVals
  rw [hcfg]
  apply List.map_congr_left
  intro n hn
  unfold controlledEntry
  rw [h.wireName n (h.controlled n hn)]

/-- Commands name their joints alike. -/
theorem Renamed.actionToJointCmd {S : String → Prop}
    {dc dc' : DataConverter F} (h : Renamed S dc dc')
    (target : List F) :
    (dc.actionToJointCmd target : JointState D)
      = dc'.actionToJointCmd target := by
  have hcfg : dc'.cfg = dc.cfg := by rw [h.members]
  unfold DataConverter.actionToJointCmd
  rw [hcfg]
  have hnames : ∀ p ∈ target.zip dc.cfg.controlledNames,
      dc.wireName p.2 = dc'.wireName p.2 := fun p hp =>
    h.wireName p.2 (h.controlled p.2 (List.of_mem_zip hp).2)
  simp only [JointState.mk.injEq, and_true]
  exact List.map_congr_left hnames

variable [Eigen F]

theorem Renamed.buildObservation {S : String → Prop}
    {dc dc' : DataConverter F} (h : Renamed S dc dc') (w : Vec3 F)
    (q : Quat F) (names : List String) (pos vel : List D) :
    dc.buildObservation w q names pos vel
      = dc'.buildObservation w q names pos vel := by
  have hpos := h.controlledVals names pos
  have hvel := h.controlledVals names vel
  unfold DataConverter.buildObservation
  rw [← hpos, ← hvel, h.members]
  rfl

omit [Eigen F] in
/-- `processAction` does not read the map, and keeps it. -/
theorem processAction_names (dc : DataConverter F) (m : StdMap String)
    (raw : List F) :
    ({ dc with modelToRos2Names := m } : DataConverter F).processAction raw
      = (dc.processAction raw).map fun r =>
          ({ r.1 with modelToRos2Names := m }, r.2) := by
  have hsmooth : ({ dc with modelToRos2Names := m } :
      DataConverter F).smooth raw = dc.smooth raw := rfl
  unfold processAction
  rw [hsmooth]
  cases dc.smooth raw with
  | error e => rfl
  | ok smoothed =>
      show (tabulate dc.numDof _ >>= _)
        = Except.map _ (tabulate dc.numDof _ >>= _)
      generalize tabulate dc.numDof _ = scaled
      cases scaled <;> rfl

omit [Eigen F] in
theorem Renamed.computePdTarget {S : String → Prop}
    {dc dc' : DataConverter F} (h : Renamed S dc dc') (scaled : List F) :
    dc.computePdTarget scaled = dc'.computePdTarget scaled := by
  rw [h.members]
  rfl

/-- Every call but `configure` is alike on both, and keeps them so. -/
theorem Renamed.step {S : String → Prop} {dc dc' : DataConverter F}
    (h : Renamed S dc dc') (op : Op F D) :
    Logged.Alike (Renamed S) (DataConverter.step dc op)
      (DataConverter.step dc' op) := by
  cases op with
  | setMotionCommand cmd =>
      refine Logged.Alike.pure ⟨?_, h.wireName, h.controlled⟩
      rw [h.members]
      rfl
  | setBase quat pos yawOnly xyOnly =>
      refine Logged.Alike.pure ⟨?_, h.wireName, h.controlled⟩
      rw [h.members]
  | buildObservation w q names pos vel =>
      dsimp only [DataConverter.step]
      rw [← h.buildObservation w q names pos vel]
      cases dc.buildObservation w q names pos vel with
      | error e => exact ⟨rfl, Or.inl ⟨e, rfl, rfl⟩⟩
      | ok obs => exact ⟨rfl, Or.inr ⟨dc, dc', rfl, rfl, h⟩⟩
  | processAction raw =>
      have hraw := processAction_names dc dc'.modelToRos2Names raw
      rw [← h.members] at hraw
      dsimp only [DataConverter.step]
      rw [hraw]
      cases hp : dc.processAction raw with
      | error e => exact ⟨rfl, Or.inl ⟨e, rfl, rfl⟩⟩
      | ok r =>
          obtain ⟨dc₁, scaled⟩ := r
          obtain ⟨hdc₁, -, -⟩ := processAction_ok hp
          refine ⟨rfl, Or.inr ⟨dc₁, _, rfl, rfl, ?_⟩⟩
          rw [hdc₁]
          exact ⟨rfl, h.wireName, h.controlled⟩
  | computePdTarget scaled =>
      dsimp only [DataConverter.step]
      rw [← h.computePdTarget scaled]
      cases dc.computePdTarget scaled with
      | error e => exact ⟨rfl, Or.inl ⟨e, rfl, rfl⟩⟩
      | ok target => exact ⟨rfl, Or.inr ⟨dc, dc', rfl, rfl, h⟩⟩
  | actionToJointCmd target =>
      dsimp only [DataConverter.step]
      rw [← h.actionToJointCmd target]
      exact ⟨rfl, Or.inr ⟨dc, dc', rfl, rfl, h⟩⟩

omit [Eigen F] in
/-- Where all wire names are equal, so is what `configure` makes of
them. -/
theorem Renamed.configure {S : String → Prop} {dc dc' : DataConverter F}
    (h : Renamed S dc dc') (hS : ∀ n, S n) (cfg : BeyondMimicConfig F) :
    Renamed S (dc.configure cfg) (dc'.configure cfg) := by
  refine ⟨?_, fun n hn => ?_, fun n _ => hS n⟩
  · rw [h.members]
    unfold DataConverter.configure
    dsimp only
    split <;> rfl
  · have hn := h.wireName n hn
    by_cases hne : cfg.robotJointNames = []
    · rw [wireName_eq, wireName_eq, (configure_oneToOne dc hne).2,
        (configure_oneToOne dc' hne).2, ← wireName_eq, ← wireName_eq]
      exact hn
    · rw [configure_wireName dc hne, configure_wireName dc' hne]
      rw [wireName_eq, wireName_eq] at hn
      cases lastKey cfg.jointNameMap.toList n with
      | none => exact hn
      | some w => rfl

omit [Eigen F] in
/-- Two converters given one configuration differ in the reverse map
alone once they have the same motion command and alignment. -/
theorem configure_renamed {S : String → Prop} (dc dc' : DataConverter F)
    {cfg : BeyondMimicConfig F} (hne : cfg.robotJointNames ≠ [])
    (hS : ∀ n ∈ cfg.robotJointNames, S n)
    (hwire : ∀ n, S n →
      (dc.configure cfg).wireName n = (dc'.configure cfg).wireName n)
    (cmd : MotionCommand F) (a : TransformAlignment F) :
    Renamed S { dc.configure cfg with command := cmd, initAlign := a }
      { dc'.configure cfg with command := cmd, initAlign := a } := by
  obtain ⟨hrobot, hmodel⟩ := configure_adapters dc hne
  obtain ⟨hrobot', hmodel'⟩ := configure_adapters dc' hne
  refine ⟨?_, hwire, ?_⟩
  · dsimp only
    rw [configure_cfg, configure_cfg, configure_lastAction,
      configure_lastAction, hrobot, hmodel, hrobot', hmodel']
  · intro n hn
    apply hS n
    rwa [← configure_controlledNames dc hne]

/-- After the opening calls both have the command and the base given. -/
theorem life_opening (dc : DataConverter F) {cmd : MotionCommand F}
    {quat : Quat F} {pos : Vec3 F} {yawOnly xyOnly : Bool}
    {opening : List (Call F D)}
    (h : opening.Perm [.op (.setMotionCommand cmd),
      .op (.setBase quat pos yawOnly xyOnly)])
    (later : List (Call F D)) :
    life dc (opening ++ later) = life { dc with
      command := cmd
      initAlign := TransformAlignment.setBase quat pos yawOnly xyOnly }
      later := by
  rcases List.perm_pair.mp h with rfl | rfl <;> rfl

/-- Two converters given one configuration cannot be told apart where
they give the same wire names to the robot's joints, and to all names if
the calls may configure again. -/
theorem configure_indistinguishable {S : String → Prop}
    {Adm : Call F D → Prop} (dc dc' : DataConverter F)
    {cfg : BeyondMimicConfig F} (hne : cfg.robotJointNames ≠ [])
    (hS : ∀ n ∈ cfg.robotJointNames, S n)
    (hadm : ∀ cfg', Adm (.configure cfg') → ∀ n, S n)
    (hwire : ∀ n, S n →
      (dc.configure cfg).wireName n = (dc'.configure cfg).wireName n) :
    Indistinguishable Adm (dc.configure cfg) (dc'.configure cfg) := by
  intro cmd quat pos yawOnly xyOnly opening later hopen hlater
  rw [life_opening _ hopen, life_opening _ hopen]
  have hstep : ∀ dc₁ dc₂ (c : Call F D), Renamed S dc₁ dc₂ → Adm c →
      Logged.Alike (Renamed S) (call dc₁ c) (call dc₂ c) := by
    intro dc₁ dc₂ c h hc
    cases c with
    | configure cfg' =>
        exact Logged.Alike.pure (h.configure (hadm cfg' hc) cfg')
    | op op => exact h.step op
  obtain ⟨hlog, hout⟩ := Logged.run_alike (Renamed S) Adm hstep
    (configure_renamed dc dc' hne hS hwire cmd _) hlater
  refine ⟨hlog, ?_⟩
  unfold life
  rcases hout with ⟨e, hx, hy⟩ | ⟨s, t, hx, hy, -⟩
  · rw [hx, hy]
  · rw [hx, hy]
    rfl

-- ============================================== telling them apart

omit [Eigen F] in
/-- A command of all controlled joints shows all their wire names. -/
theorem command_names (dc : DataConverter F) :
    (dc.actionToJointCmd
        (List.replicate dc.cfg.controlledNames.length 0) :
      JointState D).name = dc.cfg.controlledNames.map dc.wireName := by
  have hsnd : ((List.replicate dc.cfg.controlledNames.length
        (0 : F)).zip dc.cfg.controlledNames).map Prod.snd
      = dc.cfg.controlledNames :=
    List.map_snd_zip (by rw [List.length_replicate])
  conv_rhs => rw [← hsnd, List.map_map]
  rfl

/-- Converters that no command tells apart give the controlled joints
the same wire names. -/
theorem Indistinguishable.wireName {Adm : Call F D → Prop}
    {dc dc' : DataConverter F} (h : Indistinguishable Adm dc dc')
    (hadm : ∀ target, Adm (.op (.actionToJointCmd target)))
    (hcfg : dc'.cfg = dc.cfg) :
    ∀ n ∈ dc.cfg.controlledNames, dc.wireName n = dc'.wireName n := by
  have hlog := (h {} ⟨0, 0, 0, 0⟩ ⟨0, 0, 0⟩ true true _
    [.op (.actionToJointCmd
      (List.replicate dc.cfg.controlledNames.length 0))]
    (List.Perm.refl _) (by
      intro c hc
      rw [List.mem_singleton.mp hc]
      exact hadm _)).1
  have hcmd : (dc.actionToJointCmd
        (List.replicate dc.cfg.controlledNames.length 0) : JointState D)
      = dc'.actionToJointCmd
        (List.replicate dc.cfg.controlledNames.length 0) := by
    injection hlog with hout
    injection hout
  have hnames := congrArg JointState.name hcmd
  rw [command_names dc] at hnames
  rw [← hcfg, command_names dc', hcfg] at hnames
  exact List.map_inj_left.mp hnames

/-- A configuration with one joint and no wire name for it. -/
def probe (n : String) : BeyondMimicConfig F :=
  { BeyondMimicConfig.init with robotJointNames := [n] }

omit [Eigen F] in
/-- Configured with `probe n`, a converter publishes the wire name it had
for `n`. -/
theorem probe_command (dc : DataConverter F) (n : String) :
    ((dc.configure (probe n)).actionToJointCmd [0] : JointState D).name
      = [dc.wireName n] := by
  have hwire : (dc.configure (probe n)).wireName n = dc.wireName n := by
    rw [configure_wireName dc (by simp [probe]), wireName_eq]
    rfl
  rw [← hwire]
  rfl

/-- Converters that nothing tells apart give all names the same wire
names. -/
theorem Indistinguishable.wireName_all {dc dc' : DataConverter F}
    (h : Indistinguishable (D := D) (fun _ => True) dc dc')
    (n : String) : dc.wireName n = dc'.wireName n := by
  have hlog := (h {} ⟨0, 0, 0, 0⟩ ⟨0, 0, 0⟩ true true _
    [.configure (probe n), .op (.actionToJointCmd [0])]
    (List.Perm.refl _) (fun _ _ => trivial)).1
  have hcmd : ((dc.configure (probe n)).actionToJointCmd [0] :
      JointState D) = (dc'.configure (probe n)).actionToJointCmd [0] := by
    injection hlog with hout
    injection hout
  have hnames := congrArg JointState.name hcmd
  rw [probe_command, probe_command] at hnames
  injection hnames

-- ============================================================ results

/-- After any history, `configure` leaves nothing of it that a caller
could tell from a fresh converter if and only if every name that the new
`joint_name_map` does not give has kept, or got back, its own name as
wire name; callers that do not configure again only see the names of the
robot's joints. Configuring twice is never told from configuring
once. -/
theorem replaces_iff {hist : List (Call F D)} {dc : DataConverter F}
    (h : (life init hist).out = .ok dc) {cfg : BeyondMimicConfig F}
    (hne : cfg.robotJointNames ≠ []) :
    (Indistinguishable (D := D) (fun _ => True) (dc.configure cfg)
        (init.configure cfg)
      ↔ ∀ n, (∀ w, (w, n) ∉ cfg.jointNameMap.toList) →
          (translation hist n).getD n = n)
    ∧ (Indistinguishable (D := D) Call.IsOp (dc.configure cfg)
        (init.configure cfg)
      ↔ ∀ n ∈ cfg.robotJointNames,
          (∀ w, (w, n) ∉ cfg.jointNameMap.toList) →
          (translation hist n).getD n = n)
    ∧ Indistinguishable (D := D) (fun _ => True)
        ((dc.configure cfg).configure cfg) (dc.configure cfg) := by
  have hleft : ∀ n,
      (dc.configure cfg).wireName n = (init.configure cfg).wireName n
        ↔ ((∀ w, (w, n) ∉ cfg.jointNameMap.toList) →
            (translation hist n).getD n = n) := by
    intro n
    rw [configure_wireName_iff dc hne n, (life_names h).2 n]
  refine ⟨⟨fun hind n => ?_, fun hcond => ?_⟩,
    ⟨fun hind n hn => ?_, fun hcond => ?_⟩, ?_⟩
  · exact (hleft n).mp (hind.wireName_all n)
  · apply configure_indistinguishable dc init hne
      (fun n _ => trivial) (fun _ _ _ => trivial)
    exact fun n _ => (hleft n).mpr (hcond n)
  · apply (hleft n).mp
    apply hind.wireName (fun _ => trivial)
    · rw [configure_cfg, configure_cfg]
    · rwa [configure_controlledNames dc hne]
  · apply configure_indistinguishable dc init hne
      (fun n hn => hn) (fun _ hcfg => absurd hcfg id)
    exact fun n hn => (hleft n).mpr (hcond n hn)
  · apply configure_indistinguishable _ dc hne
      (fun n _ => trivial) (fun _ _ _ => trivial)
    exact fun n _ => configure_twice_wireName dc hne n

/-- `crossed` without its wire name for `hip`. -/
def unrenamed : BeyondMimicConfig ℚ := { crossed with jointNameMap := ∅ }

/-- A history that configures and then calls. -/
def crossedHistory : List (Call ℚ ℚ) :=
  [.configure crossed, .op (.setMotionCommand crossedMotion)]

theorem replaces_iff_unrenamed :
    ∃ dc, (life init crossedHistory).out = .ok dc
      ∧ (Indistinguishable (D := ℚ) Call.IsOp (dc.configure unrenamed)
          (init.configure unrenamed)
        ↔ ∀ n ∈ unrenamed.robotJointNames,
            (∀ w, (w, n) ∉ unrenamed.jointNameMap.toList) →
            (translation crossedHistory n).getD n = n) := by
  have hrun : (life init crossedHistory).out = .ok
      ((init.configure crossed).setMotionCommand crossedMotion) := rfl
  have hne : unrenamed.robotJointNames ≠ [] := by decide
  exact ⟨_, hrun, (replaces_iff hrun hne).2.1⟩

/-- Configured with `crossed` before, the converter publishes `leg_l1`
where a fresh one publishes `hip`. -/
theorem leftover_published :
    unrenamed.Sized
      ∧ (life init [.configure crossed]).out
        = .ok (init.configure crossed)
      ∧ ((init.configure crossed).configure unrenamed).actionToJointCmd
          [1, 2] = (⟨["knee", "leg_l1"], [1, 2], [0, 0], [0, 0]⟩ :
            JointState ℚ)
      ∧ (init.configure unrenamed).actionToJointCmd
          [1, 2] = (⟨["knee", "hip"], [1, 2], [0, 0], [0, 0]⟩ :
            JointState ℚ)
      ∧ ¬ Indistinguishable (D := ℚ) Call.IsOp
          ((init.configure crossed).configure unrenamed)
          (init.configure unrenamed) := by
  refine ⟨⟨rfl, rfl⟩, rfl, by decide, by decide, fun h => ?_⟩
  have hlog := (h {} ⟨1, 0, 0, 0⟩ ⟨0, 0, 0⟩ true true _
    [.op (.actionToJointCmd [1, 2])] (List.Perm.refl _)
    (by simp [Call.IsOp])).1
  exact absurd hlog (by decide)

end DataConverter

end RlDeploy
