/-
What rounding changes of the commands.

The controller feeds what it remembers back to itself, rounded again each
tick, and yet the errors do not add up over a run: beside the same
controller computed exactly, on the same actions, each command is off by
at most one bound, the same after any number of ticks
(`rounding_bounded`). The bound needs the average to forget faster than
rounding can hold on to it, which is so unless `action_beta` is as small
as the rounding errors themselves.

The numbers are finite here, in a format without a greatest one: bounded
actions are numbers, and the bound speaks of a run in which nothing
overflows.
-/
import RlDeploy.Node.Proofs.Command
import RlDeploy.Node.Proofs.Slew
import RlDeploy.Rounded

namespace RlDeploy

open Lib

namespace RLControllerNode

variable {R : Rounding ℚ} {cfg : BeyondMimicConfig R.Value}

-- =========================================== beside the exact controller

/-- The joint's values in a list of actions, as numbers. -/
theorem column_exact (raws : List (List R.Value)) (i : Nat) :
    (raws.map (List.map Rounding.Value.val)).map
        (fun raw => raw.getD i (0 : ℚ))
      = (raws.map fun raw => raw.getD i 0).map Rounding.Value.val := by
  rw [List.map_map, List.map_map]
  apply List.map_congr_left
  intro raw _
  show (raw.map Rounding.Value.val).getD i (0 : R.Value).val = _
  rw [List.getD_map]
  rfl

/-- What rounding makes of the memory of a joint. -/
theorem memory_drift {u e : ℚ} (h : R.Accurate u e)
    (hb : 0 ≤ cfg.actionBeta.val) (hb₁ : cfg.actionBeta.val ≤ 1)
    (hkept : Rounding.keptDrift u (1 - cfg.actionBeta).val < 1)
    {raws : List (List R.Value)}
    (hsize : ∀ raw ∈ raws, raw.length = cfg.numDof) {bound : ℚ}
    (hbound : 0 ≤ bound)
    (hraws : ∀ raw ∈ raws, ∀ a ∈ raw, |a.val| ≤ bound) {i : Nat}
    (hi : i < cfg.numDof) :
    ∃ x y, (memory cfg raws)[i]? = some x
      ∧ (memory cfg.exact
        (raws.map (List.map Rounding.Value.val)))[i]? = some y
      ∧ |x.val - y|
        ≤ Rounding.drift u e (1 - cfg.actionBeta).val bound := by
  have hsize' : ∀ raw ∈ raws.map (List.map Rounding.Value.val),
      raw.length = cfg.exact.numDof := by
    intro raw' hraw'
    obtain ⟨raw, hraw, rfl⟩ := List.mem_map.mp hraw'
    rw [List.length_map]
    exact hsize raw hraw
  refine ⟨_, _, memory_getElem? hsize hi, memory_getElem? hsize' hi, ?_⟩
  rw [column_exact]
  apply Rounding.ema_drift h hb hb₁ hkept _ hbound
  intro a ha
  obtain ⟨raw, hraw, rfl⟩ := List.mem_map.mp ha
  have hlt : i < raw.length := hsize raw hraw ▸ hi
  have hget : raw.getD i 0 = raw[i] := by
    rw [List.getD_eq_getElem?_getD, List.getElem?_eq_getElem hlt]
    rfl
  rw [hget]
  exact hraws raw hraw _ (List.getElem_mem hlt)

/-- What a command may be off by: the error of the memory times the
joint's scale, and one error for the scaling and the sum each. -/
def positionDrift (u e keep bound clip base scale : ℚ) : ℚ :=
  |scale| * Rounding.drift u e keep bound
    + (2 * u + u ^ 2) * (clip * |scale|) + u * |base| + (2 + u) * e

/-- What rounding makes of a command, outside residual mode. -/
theorem positionOf_drift {u e : ℚ} (h : R.Accurate u e)
    (hclip : 0 ≤ cfg.clipActions.val) {b k x : R.Value} {y off : ℚ}
    (hy : |x.val - y| ≤ off) :
    |(positionOf cfg false b k x).val
        - positionOf cfg.exact false b.val k.val y|
      ≤ |k.val| * off + (2 * u + u ^ 2) * (cfg.clipActions.val * |k.val|)
        + u * |b.val| + (2 + u) * e := by
  have hval : (positionOf cfg false b k x).val
      = R.round (b.val + R.round ((clamp x.val (-cfg.clipActions.val)
        cfg.clipActions.val) * k.val)) := by
    unfold positionOf
    rw [if_neg (by simp), Rounding.Value.val_add, Rounding.Value.val_mul,
      val_clamp]
  have hexact : positionOf cfg.exact false b.val k.val y
      = b.val + clamp y (-cfg.clipActions.val) cfg.clipActions.val
        * k.val := rfl
  rw [hval, hexact]
  -- the clip takes the two no further apart
  have hclamp := (abs_clamp_sub_le (v := x.val) (w := y) hclip).trans hy
  have hact : |clamp x.val (-cfg.clipActions.val) cfg.clipActions.val|
      ≤ cfg.clipActions.val := abs_clamp_le hclip
  generalize clamp x.val (-cfg.clipActions.val) cfg.clipActions.val = a
    at hact hclamp ⊢
  generalize clamp y (-cfg.clipActions.val) cfg.clipActions.val = a'
    at hclamp ⊢
  have hprod : |a * k.val| ≤ cfg.clipActions.val * |k.val| := by
    rw [abs_mul]
    exact mul_le_mul_of_nonneg_right hact (abs_nonneg _)
  have hbase : |b.val - b.val| ≤ 0 := by rw [sub_self, abs_zero]
  have hsum := h.round_add (le_refl |b.val|) hprod hbase (h.of_le hprod)
  have hscaled : |a * k.val - a' * k.val| ≤ |k.val| * off := by
    rw [← sub_mul, abs_mul, mul_comm]
    exact mul_le_mul_of_nonneg_left hclamp (abs_nonneg _)
  have htri := abs_sub_le (R.round (b.val + R.round (a * k.val)))
    (b.val + a * k.val) (b.val + a' * k.val)
  rw [add_sub_add_left_eq_sub] at htri
  linarith

theorem exact_default {i : Nat} {d : R.Value}
    (h : cfg.defaultDofPos[i]? = some d) :
    cfg.exact.defaultDofPos[i]? = some d.val := by
  show (cfg.defaultDofPos.map _)[i]? = _
  rw [List.getElem?_map, h]
  rfl

theorem exact_scale {i : Nat} {k : R.Value}
    (h : cfg.actionScales[i]? = some k) :
    cfg.exact.actionScales[i]? = some k.val := by
  show (cfg.actionScales.map _)[i]? = _
  rw [List.getElem?_map, h]
  rfl

/-- The translation of names has nothing to do with the arithmetic. -/
theorem wireName_exact (hrobot : cfg.robotJointNames ≠ [])
    (joint : String) :
    (DataConverter.init.configure cfg.exact).wireName joint
      = (DataConverter.init.configure cfg).wireName joint := by
  have hrobot' : cfg.exact.robotJointNames ≠ [] := hrobot
  rw [DataConverter.configure_wireName _ hrobot,
    DataConverter.configure_wireName _ hrobot']
  rfl

section Run

variable [Eigen R.Value]

/-- Two commands, joint by joint no further apart than rounding may take
them. -/
structure NearExact (cfg : BeyondMimicConfig R.Value) (u e bound : ℚ)
    (cmd cmd' : JointState ℚ) : Prop where
  name : cmd.name = cmd'.name
  near : ∀ (c i : Nat) (joint : String) (d k : R.Value),
    cfg.robotJointNames[c]? = some joint →
    cfg.jointNames[i]? = some joint → cfg.defaultDofPos[i]? = some d →
    cfg.actionScales[i]? = some k →
    ∃ p p', cmd.position[c]? = some p ∧ cmd'.position[c]? = some p'
      ∧ |p - p'| ≤ positionDrift u e (1 - cfg.actionBeta).val bound
        cfg.clipActions.val d.val k.val
  /-- A joint that the model does not have gets the filler of both. -/
  filler : ∀ (c : Nat) (joint : String),
    cfg.robotJointNames[c]? = some joint → joint ∉ cfg.jointNames →
    cmd.position[c]? = some 0 ∧ cmd'.position[c]? = some 0

/-- In any run of the node and any run of the exact node that have
processed the same actions, the commands of the moment are near each
other, however long the runs and whatever the models, the messages and
the timesteps. -/
theorem rounding_bounded {u e : ℚ} (h : R.Accurate u e)
    (hres : cfg.useResidualAction = false)
    (hclip : 0 ≤ cfg.clipActions.val) (hb : 0 ≤ cfg.actionBeta.val)
    (hb₁ : cfg.actionBeta.val ≤ 1)
    (hkept : Rounding.keptDrift u (1 - cfg.actionBeta).val < 1)
    (hj : cfg.jointNames.Nodup) (hr : cfg.robotJointNames.Nodup)
    (hrobot : cfg.robotJointNames ≠ []) (hsized : cfg.Sized)
    {net : Policy R.Value} {net' : Policy ℚ}
    (hnet : net.FullSize cfg.numDof cfg.numBodies)
    (hnet' : net'.FullSize cfg.numDof cfg.numBodies)
    {s m s' m' : Int} {evs evs' : List (Event ℚ)} {bound : ℚ}
    (hbound : 0 ≤ bound)
    (hacts : ∀ raw ∈ processedActions
        (run net (start cfg s m) (evs ++ [.timer])).log,
      ∀ a ∈ raw, |a.val| ≤ bound)
    (hsame : processedActions
        (run net' (start cfg.exact s' m') (evs' ++ [.timer])).log
      = (processedActions
        (run net (start cfg s m) (evs ++ [.timer])).log).map
          (List.map Rounding.Value.val))
    {cmd cmd' : JointState ℚ}
    (hcmd : cmd ∈ published (logAt net (start cfg s m) evs .timer))
    (hcmd' : cmd' ∈ published
      (logAt net' (start cfg.exact s' m') evs' .timer)) :
    NearExact cfg u e bound cmd cmd' := by
  have hsized' : cfg.exact.Sized :=
    ⟨(List.length_map _).trans hsized.defaultDofPos,
      (List.length_map _).trans hsized.actionScales⟩
  obtain ⟨n, hrun, hent⟩ := published_entry hj hr hrobot hsized hnet hcmd
  have hj' : cfg.exact.jointNames.Nodup := hj
  have hres' : cfg.exact.useResidualAction = false := hres
  obtain ⟨n', hrun', hent'⟩ :=
    published_entry hj' hr hrobot hsized' hnet' hcmd'
  have hmem := memory_run (hsized.runnable (Or.inr hrobot)) hnet hrun
  have hmem' := memory_run (hsized'.runnable (Or.inr hrobot)) hnet' hrun'
  refine ⟨?_, ?_, fun c joint hc hn =>
    ⟨hent.filler c joint hc hn, hent'.filler c joint hc hn⟩⟩
  · rw [hent.name, hent'.name]
    apply List.map_congr_left
    intro joint _
    exact (wireName_exact hrobot joint).symm
  · intro c i joint d k hc hi hd hk
    have hlt : i < cfg.numDof := (List.getElem?_eq_some_iff.mp hi).1
    obtain ⟨x, y, hx, hy, hoff⟩ :=
      memory_drift h hb hb₁ hkept hmem.sized hbound hacts hlt
    obtain ⟨x₁, b, k₁, hx₁, hbase, hk₁, hp⟩ := hent.entry c i joint hc hi
    obtain ⟨y₁, b', k', hy₁, hbase', hk', hp'⟩ :=
      hent'.entry c i joint hc hi
    rw [hmem.memory, hx] at hx₁
    rw [hmem'.memory, hsame, hy] at hy₁
    cases hx₁
    cases hy₁
    rw [base_default hres, hd] at hbase
    rw [base_default hres', exact_default hd] at hbase'
    rw [hk] at hk₁
    rw [exact_scale hk] at hk'
    cases hbase
    cases hk₁
    cases hbase'
    cases hk'
    rw [hres, Bool.false_and] at hp
    rw [hres', Bool.false_and] at hp'
    exact ⟨_, _, hp, hp', positionOf_drift h hclip hoff⟩

end Run

-- ================================================= a concrete instance

/-- Two joints in the machine's numbers, of which a third and a tenth
are rounded. -/
def thirds : BeyondMimicConfig single.Value :=
  { BeyondMimicConfig.init with
    jointNames := ["hip", "knee"]
    defaultDofPos := [Scalar.ofRat (1 / 10), -1]
    actionScales := [Scalar.ofRat (1 / 4), 1]
    robotJointNames := ["knee", "hip"]
    actionBeta := Scalar.ofRat (1 / 3) }

/-- A model that asks one joint for a tenth more each timestep. -/
def climbing : Policy single.Value :=
  Policy.ofFun 13 fun _ t =>
    { actions := [Scalar.ofRat (t / 10), Scalar.ofRat (1 / 3)] }

/-- The same numbers, for the exact node. -/
def climbingExact : Policy ℚ :=
  Policy.ofFun 13 fun _ t =>
    { actions := [single.round (t / 10), single.round (1 / 3)] }

theorem climbing_fullSize :
    climbing.FullSize thirds.numDof thirds.numBodies := by
  intro obs t r h
  cases h
  exact ⟨rfl, Or.inl rfl⟩

theorem climbingExact_fullSize :
    climbingExact.FullSize thirds.numDof thirds.numBodies := by
  intro obs t r h
  cases h
  exact ⟨rfl, Or.inl rfl⟩

/-- The third command, in single precision. -/
theorem rounding_bounded_thirds :
    ∃ cmd ∈ published (logAt climbing (start thirds 3 (-1))
        (twoReady ++ [.timer]) .timer),
      ∃ cmd' ∈ published (logAt climbingExact (start thirds.exact 3 (-1))
          (twoReady ++ [.timer]) .timer),
        NearExact thirds (1 / 2 * 2 ^ (-((23 : ℕ) : ℤ)))
          (1 / 2 * 2 ^ (-((149 : ℕ) : ℤ))) 1 cmd cmd' := by
  have hpub : published (logAt climbing (start thirds 3 (-1))
      (twoReady ++ [.timer]) .timer) ≠ [] := by decide +kernel
  have hpub' : published (logAt climbingExact (start thirds.exact 3 (-1))
      (twoReady ++ [.timer]) .timer) ≠ [] := by decide +kernel
  obtain ⟨cmd, hcmd⟩ := List.exists_mem_of_ne_nil _ hpub
  obtain ⟨cmd', hcmd'⟩ := List.exists_mem_of_ne_nil _ hpub'
  refine ⟨cmd, hcmd, cmd', hcmd', ?_⟩
  exact rounding_bounded (Rounding.binary_accurate 23 149) rfl
    (by decide +kernel) (by decide +kernel) (by decide +kernel)
    (by decide +kernel) (by decide) (by decide) (by decide) ⟨rfl, rfl⟩
    climbing_fullSize climbingExact_fullSize zero_le_one
    (by decide +kernel) (by decide +kernel) hcmd hcmd'

end RLControllerNode

end RlDeploy
