/-
The joint state is read by name, never by position.

Three lookups are composed: the reverse name map takes a model joint to
its wire name, the message index takes the wire name to its last entry,
and the adapter takes robot order to model order. `Reads` says what they
come to for one joint, in terms of the configuration and the message
alone; `read_by_name` that every observation of every reachable
converter reads so.

It follows that the order of a message does not matter, and neither do
its entries for other names (`Extends`): the value read is determined by
the entry that has the joint's wire name (`messageEntry_of_mem`,
`messageEntry_of_not_mem`).
-/
import RlDeploy.Converter.Proofs.Echo

namespace RlDeploy

open Lib

variable {F D : Type} [Scalar F D]

namespace DataConverter

-- ==================================================== what one joint reads

omit [Scalar F D] in
/-- The last place of a name in a message. -/
def LastAt (names : List String) (wire : String) (k : Nat) : Prop :=
  names[k]? = some wire ∧ ∀ j, k < j → names[j]? ≠ some wire

/-- The value `v` is what the message says on a joint: the entry at the
last place of its wire name. It is zero for a joint that the robot does
not have, or the message does not name, or whose array ends before. -/
def Reads (cfg : BeyondMimicConfig F) (names : List String)
    (data : List D) (joint : String) (v : F) : Prop :=
  ∃ wire, IsWireName cfg joint wire
    ∧ (joint ∉ cfg.robotJointNames → v = 0)
    ∧ (joint ∈ cfg.robotJointNames → wire ∉ names → v = 0)
    ∧ (joint ∈ cfg.robotJointNames → ∀ k, LastAt names wire k →
        v = (data[k]?.map Scalar.narrow).getD 0)

/-- The value the converter reads for a joint. -/
def observedEntry (dc : DataConverter F) (names : List String)
    (data : List D) (joint : String) : F :=
  if joint ∈ dc.cfg.robotJointNames then dc.messageEntry names data joint
  else 0

section

variable {cfg : BeyondMimicConfig F} {dc : DataConverter F}

theorem Sound.robotJointNames (hs : Sound (init.configure cfg) dc) :
    dc.cfg.robotJointNames = cfg.robotJointNames := by
  rw [hs.setup.cfg, configure_robotJointNames]

theorem observedEntry_reads (hrobot : cfg.robotJointNames ≠ [])
    (hs : Sound (init.configure cfg) dc) (names : List String)
    (data : List D) (joint : String) :
    Reads cfg names data joint (dc.observedEntry names data joint) := by
  refine ⟨dc.wireName joint, ?_, ?_, ?_, ?_⟩
  · rw [hs.setup.wireName]
    exact wireName_isWireName hrobot joint
  all_goals
    unfold observedEntry
    rw [hs.robotJointNames]
  · intro hno
    rw [if_neg hno]
  · intro hin hno
    rw [if_pos hin]
    unfold messageEntry
    rw [lastIdx_eq_none_iff.mpr hno]
  · intro hin k hk
    rw [if_pos hin]
    unfold messageEntry
    rw [lastIdx_eq_some_iff.mpr hk]
    cases hd : data[k]? with
    | none => simp [hd]
    | some v => simp [hd]

/-- The value the adapter delivers for model joint `i`. -/
theorem fitted_observedEntry (hrobot : cfg.robotJointNames ≠ [])
    (hj : cfg.jointNames.Nodup) (hr : cfg.robotJointNames.Nodup)
    (hs : Sound (init.configure cfg) dc) {names : List String}
    {data : List D} {i : Nat} {joint : String}
    (hi : cfg.jointNames[i]? = some joint) :
    (dc.robot2model.fitted (dc.controlledVals names data))[i]?
      = some (dc.observedEntry names data joint) := by
  unfold observedEntry
  rw [hs.robotJointNames]
  by_cases hin : joint ∈ cfg.robotJointNames
  case pos =>
    obtain ⟨c, hc⟩ := List.mem_iff_getElem?.mp hin
    rw [if_pos hin, fitted_controlledVals hrobot hj hr hs hi hc]
  case neg =>
    rw [if_neg hin, hs.setup.robot2model, (configure_adapters _ hrobot).1]
    exact DoFAdapter.fitted_unmatched hr hj hi hin

theorem velBlock_observedEntry (hrobot : cfg.robotJointNames ≠ [])
    (hj : cfg.jointNames.Nodup) (hr : cfg.robotJointNames.Nodup)
    (hs : Sound (init.configure cfg) dc) {names : List String}
    {vel : List D} {i : Nat} {joint : String}
    (hi : cfg.jointNames[i]? = some joint) :
    (dc.velBlock names vel)[i]?
      = some (dc.observedEntry names vel joint) := by
  have hlt : i < dc.numDof := by
    rw [hs.setup.joints]
    exact (List.getElem?_eq_some_iff.mp hi).1
  unfold velBlock
  rw [List.getElem?_take_of_lt hlt,
    fitted_observedEntry hrobot hj hr hs hi]

theorem posBlock_observedEntry (hrobot : cfg.robotJointNames ≠ [])
    (hj : cfg.jointNames.Nodup) (hr : cfg.robotJointNames.Nodup)
    (hs : Sound (init.configure cfg) dc) {names : List String}
    {pos : List D} {i : Nat} {joint : String} {d : F}
    (hi : cfg.jointNames[i]? = some joint)
    (hd : cfg.defaultDofPos[i]? = some d) :
    (dc.posBlock names pos)[i]?
      = some (dc.observedEntry names pos joint - d) := by
  exact posBlock_of_fitted hs hi hd
    (fitted_observedEntry hrobot hj hr hs hi)

end

-- ============================================ messages with other entries

/-- The entries of a message with one position and one velocity a name. -/
abbrev Entry (D : Type) := String × D × D

def Entry.names (es : List (Entry D)) : List String := es.map Prod.fst

def Entry.positions (es : List (Entry D)) : List D :=
  es.map fun e => e.2.1

def Entry.velocities (es : List (Entry D)) : List D :=
  es.map fun e => e.2.2

omit [Scalar F D] in
/-- The entries `es'` are those of `es` in any order, and further ones
that are no entries of joints that the robot and the model have. -/
def Extends (cfg : BeyondMimicConfig F) (es es' : List (Entry D)) :
    Prop :=
  ∃ extra, es'.Perm (es ++ extra)
    ∧ ∀ e ∈ extra, ∀ joint ∈ cfg.robotJointNames,
      joint ∈ cfg.jointNames → ¬ IsWireName cfg joint e.1

section

variable {cfg : BeyondMimicConfig F} {dc : DataConverter F}
  {es es' : List (Entry D)} {g : Entry D → D} {joint : String}

theorem messageEntry_of_mem (hnd : (Entry.names es).Nodup) {e : Entry D}
    (he : e ∈ es) (hw : e.1 = dc.wireName joint) :
    dc.messageEntry (Entry.names es) (es.map g) joint
      = Scalar.narrow (g e) := by
  obtain ⟨k, hk⟩ := List.mem_iff_getElem?.mp he
  have hname : (Entry.names es)[k]? = some (dc.wireName joint) := by
    unfold Entry.names
    rw [List.getElem?_map, hk, ← hw]
    rfl
  unfold messageEntry
  rw [lastIdx_of_nodup hnd hname]
  simp [hk]

theorem messageEntry_of_not_mem {names : List String} {data : List D}
    (h : dc.wireName joint ∉ names) :
    dc.messageEntry names data joint = 0 := by
  unfold messageEntry
  rw [lastIdx_eq_none_iff.mpr h]

/-- The joints that both have read the same from both messages. -/
theorem messageEntry_extends (hrobot : cfg.robotJointNames ≠ [])
    (hs : Sound (init.configure cfg) dc)
    (hnd : (Entry.names es').Nodup) (h : Extends cfg es es')
    (hin : joint ∈ cfg.robotJointNames) (hmodel : joint ∈ cfg.jointNames) :
    dc.messageEntry (Entry.names es') (es'.map g) joint
      = dc.messageEntry (Entry.names es) (es.map g) joint := by
  obtain ⟨extra, hperm, hextra⟩ := h
  have hnames : (Entry.names es').Perm
      (Entry.names es ++ Entry.names extra) := by
    have := hperm.map Prod.fst
    rwa [List.map_append] at this
  have hnd₀ : (Entry.names es).Nodup :=
    (List.nodup_append.mp (hnames.nodup_iff.mp hnd)).1
  have hwire : IsWireName cfg joint (dc.wireName joint) := by
    rw [hs.setup.wireName]
    exact wireName_isWireName hrobot joint
  by_cases hmem : dc.wireName joint ∈ Entry.names es
  case pos =>
    obtain ⟨e, he, hw⟩ := List.mem_map.mp hmem
    rw [messageEntry_of_mem hnd₀ he hw, messageEntry_of_mem hnd
      (hperm.mem_iff.mpr (List.mem_append_left _ he)) hw]
  case neg =>
    have hmem' : dc.wireName joint ∉ Entry.names es' := by
      intro hcon
      rcases List.mem_append.mp (hnames.mem_iff.mp hcon) with hc | hc
      · exact hmem hc
      · obtain ⟨e, he, hw⟩ := List.mem_map.mp hc
        exact hextra e he joint hin hmodel (hw ▸ hwire)
    rw [messageEntry_of_not_mem hmem, messageEntry_of_not_mem hmem']

/-- Both messages are observed alike. -/
theorem observedEntry_extends (hrobot : cfg.robotJointNames ≠ [])
    (hs : Sound (init.configure cfg) dc)
    (hnd : (Entry.names es').Nodup) (h : Extends cfg es es')
    (hmodel : joint ∈ cfg.jointNames) :
    dc.observedEntry (Entry.names es') (es'.map g) joint
      = dc.observedEntry (Entry.names es) (es.map g) joint := by
  unfold observedEntry
  rw [hs.robotJointNames]
  by_cases hin : joint ∈ cfg.robotJointNames
  case pos =>
    rw [if_pos hin, if_pos hin,
      messageEntry_extends hrobot hs hnd h hin hmodel]
  case neg => rw [if_neg hin, if_neg hin]

end

-- ======================================================= the observation

/-- The message enters an observation through blocks 5 and 6 alone. -/
theorem buildObservation_congr [Eigen F] {dc : DataConverter F}
    (h : dc.Observable) {names names' : List String}
    {pos pos' vel vel' : List D}
    (hpos : dc.posBlock names' pos' = dc.posBlock names pos)
    (hvel : dc.velBlock names' vel' = dc.velBlock names vel) (w : Vec3 F)
    (q : Quat F) :
    dc.buildObservation w q names' pos' vel'
      = dc.buildObservation w q names pos vel := by
  obtain ⟨anchor, ha, hobs⟩ := buildObservation_eq h w q names pos vel
  obtain ⟨anchor', ha', hobs'⟩ := buildObservation_eq h w q names' pos'
    vel'
  cases ha.symm.trans ha'
  rw [hobs, hobs', hpos, hvel]

/-- Every observation of every reachable converter reads each model
joint by its wire name, and does not depend on the order of the message
or on entries for other names. -/
theorem read_by_name [Eigen F] {cfg : BeyondMimicConfig F}
    (hj : cfg.jointNames.Nodup) (hr : cfg.robotJointNames.Nodup)
    (hrobot : cfg.robotJointNames ≠ []) (hsized : cfg.Sized)
    {ops : List (Op F D)}
    (hops : ∀ op ∈ ops, op.WellSized cfg.numDof cfg.numBodies) :
    ∃ dc, (run (init.configure cfg) ops).out = .ok dc
      ∧ (∀ (w : Vec3 F) (q : Quat F) (names : List String)
          (pos vel : List D),
        ∃ obs, dc.buildObservation w q names pos vel = .ok obs
          ∧ ∀ (i : Nat) (joint : String) (d : F),
            cfg.jointNames[i]? = some joint →
            cfg.defaultDofPos[i]? = some d →
            ∃ v v', Reads cfg names pos joint v
              ∧ Reads cfg names vel joint v'
              ∧ (block obs (dc.anchorEnd + 3) cfg.numDof)[i]?
                = some (v - d)
              ∧ (block obs (dc.anchorEnd + 3 + cfg.numDof)
                  cfg.numDof)[i]? = some v')
      ∧ ∀ (w : Vec3 F) (q : Quat F) (es es' : List (Entry D)),
        (Entry.names es').Nodup → Extends cfg es es' →
        dc.buildObservation w q (Entry.names es') (Entry.positions es')
            (Entry.velocities es')
          = dc.buildObservation w q (Entry.names es)
            (Entry.positions es) (Entry.velocities es) := by
  have hready := configure_ready (init : DataConverter F)
    (hsized.runnable (Or.inr hrobot))
  obtain ⟨dc, hrun, hs⟩ := run_configure_ok
    (hsized.runnable (Or.inr hrobot)) hops
  have hn : dc.numDof = cfg.numDof := by
    rw [hs.setup.joints]
  refine ⟨dc, hrun, ?_, ?_⟩
  · intro w q names pos vel
    obtain ⟨obs, hobs, hlay⟩ :=
      buildObservation_layout hready hs w q names pos vel
    refine ⟨obs, hobs, fun i joint d hi hd => ?_⟩
    refine ⟨_, _, observedEntry_reads hrobot hs names pos joint,
      observedEntry_reads hrobot hs names vel joint, ?_, ?_⟩
    · rw [← hn, hlay.relPos]
      exact posBlock_observedEntry hrobot hj hr hs hi hd
    · rw [← hn, hlay.jointVel]
      exact velBlock_observedEntry hrobot hj hr hs hi
  · intro w q es es' hnd hext
    have hobs := hs.observable hready
    -- both blocks agree entry by entry
    have hlt : ∀ {i : Nat}, i < cfg.numDof →
        ∃ joint d, cfg.jointNames[i]? = some joint
          ∧ cfg.defaultDofPos[i]? = some d := by
      intro i hi
      exact ⟨_, _, List.getElem?_eq_getElem hi, List.getElem?_eq_getElem
        (by rw [hsized.defaultDofPos]; exact hi)⟩
    refine buildObservation_congr hobs ?_ ?_ w q
    · apply List.ext_getElem?
      intro i
      by_cases hi : i < cfg.numDof
      case neg =>
        rw [List.getElem?_eq_none, List.getElem?_eq_none]
        · rw [posBlock_length hobs.tarLen hobs.default, hn]
          exact not_lt.mp hi
        · rw [posBlock_length hobs.tarLen hobs.default, hn]
          exact not_lt.mp hi
      obtain ⟨joint, d, hjoint, hd⟩ := hlt hi
      rw [posBlock_observedEntry hrobot hj hr hs hjoint hd,
        posBlock_observedEntry hrobot hj hr hs hjoint hd]
      exact congrArg (fun v => some (v - d)) (observedEntry_extends
        hrobot hs hnd hext (List.mem_of_getElem? hjoint))
    · apply List.ext_getElem?
      intro i
      by_cases hi : i < cfg.numDof
      case neg =>
        rw [List.getElem?_eq_none, List.getElem?_eq_none]
        · rw [velBlock_length hobs.tarLen, hn]
          exact not_lt.mp hi
        · rw [velBlock_length hobs.tarLen, hn]
          exact not_lt.mp hi
      obtain ⟨joint, d, hjoint, -⟩ := hlt hi
      rw [velBlock_observedEntry hrobot hj hr hs hjoint,
        velBlock_observedEntry hrobot hj hr hs hjoint]
      exact congrArg some (observedEntry_extends hrobot hs hnd hext
        (List.mem_of_getElem? hjoint))

/-- `crossed` after some calls: its joint `hip` is `leg_l1` on the
wire. -/
theorem read_by_name_crossed :
    ∃ dc, (run (init.configure crossed) crossedOps).out = .ok dc
      ∧ (∀ (w : Vec3 ℚ) (q : Quat ℚ) (names : List String)
          (pos vel : List ℚ),
        ∃ obs, dc.buildObservation w q names pos vel = .ok obs
          ∧ ∀ (i : Nat) (joint : String) (d : ℚ),
            crossed.jointNames[i]? = some joint →
            crossed.defaultDofPos[i]? = some d →
            ∃ v v', Reads crossed names pos joint v
              ∧ Reads crossed names vel joint v'
              ∧ (block obs (dc.anchorEnd + 3) crossed.numDof)[i]?
                = some (v - d)
              ∧ (block obs (dc.anchorEnd + 3 + crossed.numDof)
                  crossed.numDof)[i]? = some v')
      ∧ ∀ (w : Vec3 ℚ) (q : Quat ℚ) (es es' : List (Entry ℚ)),
        (Entry.names es').Nodup → Extends crossed es es' →
        dc.buildObservation w q (Entry.names es') (Entry.positions es')
            (Entry.velocities es')
          = dc.buildObservation w q (Entry.names es)
            (Entry.positions es) (Entry.velocities es) :=
  read_by_name (by decide) (by decide) (by decide) crossed_sized
    crossedOps_wellSized

end DataConverter

end RlDeploy
