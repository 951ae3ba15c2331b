/-
The echo round trip: a command message fed back as the joint state is
observed as the action it was computed from.

The way out translates model order to robot order and model names to
wire names; the way in indexes the message by wire name and translates
robot order back to model order. The two are written separately, over
two adapters. They invert each other when the robot's names are a
permutation of the model's and no two of them share a wire name:

- on the way out, the entry of robot joint `c` is the target of the
  model joint of that name (`published_match`);
- in the message that comes back, the last entry of that wire name is
  that entry, wherever it stands and whatever else was interleaved
  (`fedBack_entry`);
- on the way in, the entry of model joint `i` is the one extracted for
  the robot joint of that name (`posBlock_getElem?`).

Subtracting the default from default plus action is the action, in exact
arithmetic.

`IsWireName` says in terms of the map alone which wire name a joint has;
the reverse map of the code holds it (`wireName_isWireName`).
-/
import RlDeploy.Converter.Proofs.Target
import RlDeploy.Converter.Proofs.Layout

namespace RlDeploy

open Lib

variable {F D : Type} [Scalar F D]

namespace DataConverter

-- ======================================================= the wire name

omit [Scalar F D] in
/-- The wire name of a joint: the greatest name in string order that
`joint_name_map` maps to it, and its own name when there is none. -/
def IsWireName (cfg : BeyondMimicConfig F) (joint wire : String) : Prop :=
  (cfg.jointNameMap[wire]? = some joint
    ∧ ∀ other : String, cfg.jointNameMap[other]? = some joint →
      other ≤ wire)
  ∨ (wire = joint
    ∧ ∀ other : String, cfg.jointNameMap[other]? ≠ some joint)

/-- The reverse map holds the wire names. -/
theorem wireName_isWireName {cfg : BeyondMimicConfig F}
    (hrobot : cfg.robotJointNames ≠ []) (joint : String) :
    IsWireName cfg joint ((init.configure cfg).wireName joint) := by
  have hinit : (init : DataConverter F).modelToRos2Names[joint]? = none :=
    rfl
  have hmem : ∀ w : String, (w, joint) ∈ cfg.jointNameMap.toList
      ↔ cfg.jointNameMap[w]? = some joint :=
    fun w => Std.TreeMap.mem_toList_iff_getElem?_eq_some
  unfold IsWireName
  rw [configure_wireName _ hrobot, hinit, Option.or_none]
  cases h : lastKey cfg.jointNameMap.toList joint with
  | none =>
      right
      refine ⟨rfl, fun other hother => ?_⟩
      exact lastKey_eq_none_iff.mp h other ((hmem other).mpr hother)
  | some wire =>
      left
      obtain ⟨hin, hgreat⟩ := lastKey_greatest
        (R := fun a b => compare a b = Ordering.lt)
        Std.TreeMap.ordered_keys_toList h
      refine ⟨(hmem wire).mp hin, fun other hother => ?_⟩
      rcases hgreat other ((hmem other).mpr hother) with heq | hlt
      · rw [heq]
        exact String.le_refl wire
      · have hless : other < wire := compareOfLessAndEq_eq_lt.mp hlt
        exact String.lt_asymm hless

omit [Scalar F D] in
/-- A joint has one wire name. -/
theorem IsWireName.unique {cfg : BeyondMimicConfig F}
    {joint wire wire' : String}
    (h : IsWireName cfg joint wire) (h' : IsWireName cfg joint wire') :
    wire = wire' := by
  rcases h with ⟨hmap, hgreat⟩ | ⟨hself, hnone⟩
  · rcases h' with ⟨hmap', hgreat'⟩ | ⟨-, hnone'⟩
    · exact String.le_antisymm (hgreat' wire hmap) (hgreat wire' hmap')
    · exact absurd hmap (hnone' wire)
  · rcases h' with ⟨hmap', -⟩ | ⟨hself', -⟩
    · exact absurd hmap' (hnone wire')
    · rw [hself, hself']

/-- Joints that the reverse map keeps apart have no wire name in
common. -/
theorem isWireName_inj {cfg : BeyondMimicConfig F}
    (hrobot : cfg.robotJointNames ≠ []) {joints : List String}
    (hinj : ∀ a ∈ joints, ∀ b ∈ joints, (init.configure cfg).wireName a
      = (init.configure cfg).wireName b → a = b) :
    ∀ a ∈ joints, ∀ b ∈ joints, ∀ wire, IsWireName cfg a wire →
      IsWireName cfg b wire → a = b := by
  intro a ha b hb wire hwa hwb
  apply hinj a ha b hb
  rw [(wireName_isWireName hrobot a).unique hwa,
    (wireName_isWireName hrobot b).unique hwb]

-- ============================================================ extraction

/-- What the message says on one controlled joint: the entry at the last
index of its wire name, and zero without one. -/
def messageEntry (dc : DataConverter F) (names : List String)
    (data : List D) (n : String) : F :=
  match lastIdx names (dc.wireName n) with
  | some k =>
      match data[k]? with
      | some v => Scalar.narrow v
      | none => 0
  | none => 0

theorem controlledVals_eq (dc : DataConverter F) (names : List String)
    (data : List D) :
    dc.controlledVals names data
      = dc.cfg.controlledNames.map (dc.messageEntry names data) := by
  unfold controlledVals
  apply List.map_congr_left
  intro n _
  unfold controlledEntry
  rw [indexMap_getElem?]
  unfold messageEntry
  cases lastIdx names (dc.wireName n) with
  | none => rfl
  | some k => cases data[k]? <;> rfl

section

variable {cfg : BeyondMimicConfig F} {dc : DataConverter F}

/-- The value observed for model joint `i`, a joint the robot has: what
the message says under its wire name. -/
theorem fitted_controlledVals (hrobot : cfg.robotJointNames ≠ [])
    (hj : cfg.jointNames.Nodup) (hr : cfg.robotJointNames.Nodup)
    (hs : Sound (init.configure cfg) dc) {names : List String}
    {data : List D} {i c : Nat} {n : String}
    (hi : cfg.jointNames[i]? = some n)
    (hc : cfg.robotJointNames[c]? = some n) :
    (dc.robot2model.fitted (dc.controlledVals names data))[i]?
      = some (dc.messageEntry names data n) := by
  rw [hs.setup.robot2model, (configure_adapters _ hrobot).1]
  apply DoFAdapter.fitted_match hr hj hc hi
  rw [controlledVals_eq, hs.setup.cfg, configure_controlledNames _ hrobot,
    List.getElem?_map, hc]
  rfl

/-- An entry of the position block is what the adapter holds there,
minus the default. -/
theorem posBlock_of_fitted (hs : Sound (init.configure cfg) dc)
    {names : List String} {pos : List D} {i : Nat} {n : String} {d v : F}
    (hi : cfg.jointNames[i]? = some n)
    (hd : cfg.defaultDofPos[i]? = some d)
    (hv : (dc.robot2model.fitted (dc.controlledVals names pos))[i]?
      = some v) : (dc.posBlock names pos)[i]? = some (v - d) := by
  have hlt : i < dc.numDof := by
    rw [hs.setup.joints]
    exact (List.getElem?_eq_some_iff.mp hi).1
  have hd' : dc.cfg.defaultDofPos[i]? = some d := by
    obtain ⟨k, hk⟩ := hs.setup.config
    rw [hk, hd]
  unfold posBlock
  rw [List.getElem?_zipWith, List.getElem?_take_of_lt hlt,
    List.getElem?_take_of_lt hlt, hv, hd']

/-- The relative position observed for model joint `i`. -/
theorem posBlock_getElem? (hrobot : cfg.robotJointNames ≠ [])
    (hj : cfg.jointNames.Nodup) (hr : cfg.robotJointNames.Nodup)
    (hs : Sound (init.configure cfg) dc) {names : List String}
    {pos : List D} {i c : Nat} {n : String} {d : F}
    (hi : cfg.jointNames[i]? = some n)
    (hc : cfg.robotJointNames[c]? = some n)
    (hd : cfg.defaultDofPos[i]? = some d) :
    (dc.posBlock names pos)[i]? = some (dc.messageEntry names pos n - d) := by
  exact posBlock_of_fitted hs hi hd
    (fitted_controlledVals hrobot hj hr hs hi hc)

end

-- ======================================================= the fed message

/-- The joint state `(names, pos)` is the command `m` with its entries in
any order and further joints of other names anywhere between them. -/
def FedBack (m : JointState D) (names : List String) (pos : List D) :
    Prop :=
  names.length = pos.length ∧ ∃ extra : List (String × D),
    (∀ e ∈ extra, e.1 ∉ m.name)
      ∧ (names.zip pos).Perm (m.name.zip m.position ++ extra)

omit [Scalar F D] in
/-- In a fed back message, every entry of a name that the command has
once is the command's. -/
theorem fedBack_entry {m : JointState D} {names : List String}
    {pos : List D} (h : FedBack m names pos)
    (hnd : m.name.Nodup)
    {c : Nat} {w : String} {v : D} (hw : m.name[c]? = some w)
    (hv : m.position[c]? = some v) :
    ∃ k, lastIdx names w = some k ∧ pos[k]? = some v := by
  obtain ⟨hnp, extra, hextra, hperm⟩ := h
  have hmem : (w, v) ∈ names.zip pos := by
    refine hperm.mem_iff.mpr (List.mem_append_left _ ?_)
    exact List.mem_of_getElem? (i := c) (by
      rw [List.getElem?_zip_eq_some]
      exact ⟨hw, hv⟩)
  -- the name occurs, so it has a last index
  obtain ⟨k, hk⟩ : ∃ k, lastIdx names w = some k := by
    cases hl : lastIdx names w with
    | some k => exact ⟨k, rfl⟩
    | none =>
        exact absurd (List.of_mem_zip hmem).1 (lastIdx_eq_none_iff.mp hl)
  refine ⟨k, hk, ?_⟩
  have hkn := (lastIdx_eq_some_iff.mp hk).1
  have hkp : k < pos.length := hnp ▸ lastIdx_lt hk
  have hkmem : (w, pos[k]) ∈ names.zip pos :=
    List.mem_of_getElem? (i := k) (by
      rw [List.getElem?_zip_eq_some]
      exact ⟨hkn, List.getElem?_eq_getElem hkp⟩)
  -- the entry there is no extra joint, so it is the command's own
  rcases List.mem_append.mp (hperm.mem_iff.mp hkmem) with hin | hin
  · obtain ⟨c', hc'⟩ := List.mem_iff_getElem?.mp hin
    obtain ⟨hw', hv'⟩ := List.getElem?_zip_eq_some.mp hc'
    have hcc : c' = c := by
      have h₁ := lastIdx_of_nodup hnd hw'
      have h₂ := lastIdx_of_nodup hnd hw
      simpa using h₁.symm.trans h₂
    subst hcc
    rw [List.getElem?_eq_getElem hkp, ← hv', hv]
  · exact absurd (List.mem_of_getElem? hw) (hextra _ hin)

-- ======================================================== the round trip

section RoundTrip

variable {cfg : BeyondMimicConfig ℚ} {dc dc' : DataConverter ℚ}
  {action : List ℚ}

/-- Outside residual mode the target is the default plus the action. -/
theorem jointTarget_default (hres : cfg.useResidualAction = false)
    (hs : Sound (init.configure cfg) dc) {i : Nat} {d s t : ℚ}
    (hd : cfg.defaultDofPos[i]? = some d) (ha : action[i]? = some s)
    (ht : dc.jointTarget action i = some t) : t = d + s := by
  obtain ⟨k, hcfg⟩ := hs.setup.config
  unfold jointTarget at ht
  rw [hcfg] at ht
  simp only [hres, hd, ha, Bool.false_and, Bool.false_eq_true,
    if_false] at ht
  exact (Option.some.inj ht).symm

/-- Wire names that are distinct on the robot's joints make the
command's names distinct. -/
theorem command_name_nodup (hrobot : cfg.robotJointNames ≠ [])
    (hr : cfg.robotJointNames.Nodup)
    (hinj : ∀ a ∈ cfg.robotJointNames, ∀ b ∈ cfg.robotJointNames,
      (init.configure cfg).wireName a = (init.configure cfg).wireName b →
        a = b)
    (hs : Sound (init.configure cfg) dc) :
    (dc.actionToJointCmd (published cfg dc action)).name.Nodup := by
  rw [command_name hrobot hs]
  apply hr.map_on
  intro a ha b hb heq
  rw [hs.setup.wireName, hs.setup.wireName] at heq
  exact hinj a ha b hb heq

/-- The observed relative positions of a fed back command are the
action. -/
theorem posBlock_fedBack (hrobot : cfg.robotJointNames ≠ [])
    (hj : cfg.jointNames.Nodup)
    (hperm : cfg.robotJointNames.Perm cfg.jointNames)
    (hsized : cfg.Sized) (hres : cfg.useResidualAction = false)
    (hinj : ∀ a ∈ cfg.robotJointNames, ∀ b ∈ cfg.robotJointNames,
      (init.configure cfg).wireName a = (init.configure cfg).wireName b →
        a = b)
    (hs : Sound (init.configure cfg) dc)
    (hs' : Sound (init.configure cfg) dc')
    (hact : action.length = cfg.numDof) {names : List String}
    {pos : List ℚ} (hfed : FedBack
      (dc.actionToJointCmd (published cfg dc action)) names pos) :
    dc'.posBlock names pos = action := by
  have hr : cfg.robotJointNames.Nodup := hperm.nodup_iff.mpr hj
  have hrunnable := hsized.runnable (Or.inr hrobot)
  have hobs := hs'.observable (configure_ready _ hrunnable)
  have hlen : (dc'.posBlock names pos).length = cfg.numDof := by
    rw [posBlock_length hobs.tarLen hobs.default, hs'.setup.numDof,
      configure_numDof]
  apply List.ext_getElem?
  intro i
  rcases Nat.lt_or_ge i cfg.numDof with hi | hi
  case inr =>
    rw [List.getElem?_eq_none (by rw [hlen]; exact hi),
      List.getElem?_eq_none (by rw [hact]; exact hi)]
  -- model joint `i`, its name, and where the robot lists it
  obtain ⟨n, hn⟩ : ∃ n, cfg.jointNames[i]? = some n :=
    ⟨_, List.getElem?_eq_getElem hi⟩
  obtain ⟨c, hc⟩ : ∃ c : Nat, cfg.robotJointNames[c]? = some n :=
    List.mem_iff_getElem?.mp
      (hperm.mem_iff.mpr (List.mem_of_getElem? hn))
  obtain ⟨s, ha⟩ : ∃ s, action[i]? = some s :=
    ⟨_, List.getElem?_eq_getElem (by rw [hact]; exact hi)⟩
  obtain ⟨d, hd⟩ : ∃ d, cfg.defaultDofPos[i]? = some d :=
    ⟨_, List.getElem?_eq_getElem (by rw [hsized.defaultDofPos]; exact hi)⟩
  obtain ⟨t, ht, hpub⟩ := published_match hrobot hsized hj hr hs hact hc hn
  obtain ⟨k, hk, hpk⟩ := fedBack_entry hfed
    (command_name_nodup hrobot hr hinj hs) (c := c)
    (w := dc.wireName n) (v := t)
    (by rw [command_name hrobot hs, List.getElem?_map, hc]; rfl)
    (by rw [command_position hrobot hs, List.getElem?_map, hpub]; rfl)
  have hentry : dc'.messageEntry names pos n = t := by
    unfold messageEntry
    rw [hs'.setup.wireName, ← hs.setup.wireName, hk]
    simp only [hpk]
    rfl
  rw [posBlock_getElem? hrobot hj hr hs' hn hc hd, hentry, ha,
    jointTarget_default hres hs hd ha ht, add_sub_cancel_left]

/-- Commands and observations use one joint correspondence: a command
fed back as the joint state, in any order and among any other joints, is
observed as the action it came from, and the command names every model
joint's wire name once.

The converter may have made any calls before it computed the command,
and any others before it observes. -/
theorem echo_round_trip [Eigen ℚ] (hj : cfg.jointNames.Nodup)
    (hperm : cfg.robotJointNames.Perm cfg.jointNames)
    (hsized : cfg.Sized) (hres : cfg.useResidualAction = false)
    (hinj : ∀ a ∈ cfg.robotJointNames, ∀ b ∈ cfg.robotJointNames,
      ∀ wire, IsWireName cfg a wire → IsWireName cfg b wire → a = b)
    {ops ops' : List (Op ℚ ℚ)}
    (hops : ∀ op ∈ ops, op.WellSized cfg.numDof cfg.numBodies)
    (hops' : ∀ op ∈ ops', op.WellSized cfg.numDof cfg.numBodies)
    (hact : action.length = cfg.numDof) :
    ∃ dc dc' target, (run (init.configure cfg) ops).out = .ok dc
      ∧ (run (init.configure cfg) ops').out = .ok dc'
      ∧ dc.computePdTarget action = .ok target
      ∧ (∀ n ∈ cfg.jointNames, ∃ wire, IsWireName cfg n wire
          ∧ (dc.actionToJointCmd target).name.count wire = 1)
      ∧ ∀ (names : List String) (pos vel : List ℚ) (w : Vec3 ℚ)
          (q : Quat ℚ),
          FedBack (dc.actionToJointCmd target) names pos →
          ∃ obs, dc'.buildObservation w q names pos vel = .ok obs
            ∧ block obs (dc'.anchorEnd + 3) cfg.numDof = action := by
  by_cases hrobot : cfg.robotJointNames = []
  case pos =>
    -- no joints: nothing is commanded, and the block is empty
    have hnil : cfg.jointNames = [] := by
      rw [hrobot] at hperm
      exact List.nil_perm.mp hperm
    have hzero : cfg.numDof = 0 := by
      unfold BeyondMimicConfig.numDof
      rw [hnil, List.length_nil]
    have hact' : action = [] :=
      List.length_eq_zero_iff.mp (hact.trans hzero)
    have hrunnable := hsized.runnable (Or.inl hzero)
    have hready := configure_ready init hrunnable
    obtain ⟨dc, hrun, hs⟩ := run_configure_ok hrunnable hops
    obtain ⟨dc', hrun', hs'⟩ := run_configure_ok hrunnable hops'
    refine ⟨dc, dc', _, hrun, hrun', hs.computePdTarget hready.default
      (by rw [configure_numDof, hact]), ?_, ?_⟩
    · intro n hn
      rw [hnil] at hn
      cases hn
    · intro names pos vel w q _
      obtain ⟨obs, hobs, -⟩ :=
        buildObservation_layout hready hs' w q names pos vel
      refine ⟨obs, hobs, ?_⟩
      unfold block
      rw [hzero, List.take_zero, hact']
  case neg =>
    have hr : cfg.robotJointNames.Nodup := hperm.nodup_iff.mpr hj
    have hinj' : ∀ a ∈ cfg.robotJointNames, ∀ b ∈ cfg.robotJointNames,
        (init.configure cfg).wireName a
          = (init.configure cfg).wireName b → a = b :=
      fun a ha b hb h => hinj a ha b hb _ (wireName_isWireName hrobot a)
        (h ▸ wireName_isWireName hrobot b)
    have hrunnable := hsized.runnable (Or.inr hrobot)
    obtain ⟨dc, hrun, hs⟩ := run_configure_ok hrunnable hops
    obtain ⟨dc', hrun', hs'⟩ := run_configure_ok hrunnable hops'
    refine ⟨dc, dc', _, hrun, hrun',
      computePdTarget_robot hrobot hsized hs hact, ?_, ?_⟩
    · intro n hn
      refine ⟨_, wireName_isWireName hrobot n, ?_⟩
      refine List.count_eq_one_of_mem
        (command_name_nodup hrobot hr hinj' hs) ?_
      rw [command_name hrobot hs]
      exact List.mem_map.mpr
        ⟨n, hperm.mem_iff.mpr hn, hs.setup.wireName n⟩
    · intro names pos vel w q hfed
      obtain ⟨obs, hobs, hlay⟩ := buildObservation_layout
        (configure_ready _ hrunnable) hs' w q names pos vel
      refine ⟨obs, hobs, ?_⟩
      rw [← configure_numDof init cfg, ← hs'.setup.numDof, hlay.relPos]
      exact posBlock_fedBack hrobot hj hperm hsized hres hinj' hs hs' hact
        hfed

theorem echo_round_trip_crossed :
    ∃ dc dc' target, (run (init.configure crossed) crossedOps).out = .ok dc
      ∧ (run (init.configure crossed) []).out = .ok dc'
      ∧ dc.computePdTarget [1, 3] = .ok target
      ∧ (∀ n ∈ crossed.jointNames, ∃ wire, IsWireName crossed n wire
          ∧ (dc.actionToJointCmd target).name.count wire = 1)
      ∧ ∀ (names : List String) (pos vel : List ℚ) (w : Vec3 ℚ)
          (q : Quat ℚ),
          FedBack (dc.actionToJointCmd target) names pos →
          ∃ obs, dc'.buildObservation w q names pos vel = .ok obs
            ∧ block obs (dc'.anchorEnd + 3) crossed.numDof = [1, 3] :=
  echo_round_trip (by decide) (by decide) crossed_sized rfl
    (isWireName_inj (by decide) (by decide)) crossedOps_wellSized (by simp)
    rfl

end RoundTrip

end DataConverter

end RlDeploy
