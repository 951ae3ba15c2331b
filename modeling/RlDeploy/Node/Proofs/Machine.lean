/-
The safety envelope in the machine's arithmetic.

The model may answer anything: what is too great for a `float` is an
infinity, and an answer can be NaN. The clip makes a finite action of an
infinity, and what comes after it keeps the order under rounding and
overflow, so a command is between the ones that the saturated actions
give, computed with the same roundings. The one thing that gets past the
clip is NaN, for every comparison with it is false: a command is within
its envelope, or it is NaN (`machine_envelope`).

A command that is NaN goes back to an answer that was not finite. With
`action_beta` in `[0, 1]` the average of finite actions may overflow, but
it never becomes NaN, so as long as a joint's answers are finite each of
its commands is within the envelope.
-/
import RlDeploy.Machine
import RlDeploy.Node.Proofs.Command

namespace RlDeploy

open Lib Format

namespace RLControllerNode

variable {A : Format} {cfg : BeyondMimicConfig A.Number}

-- ======================================================== the envelope

/-- Between the positions that the saturated actions give, for the base
`b` and the scale `k`. -/
def Saturated (cfg : BeyondMimicConfig A.Number) (b k : A.Number)
    (p : double.Number) : Prop :=
  Number.le (Scalar.widen (b - cfg.clipActions * k.abs)) p = true
    ∧ Number.le p (Scalar.widen (b + cfg.clipActions * k.abs)) = true

/-- Entry `i` of each action is finite. -/
def FiniteAt (raws : List (List A.Number)) (i : Nat) : Prop :=
  ∀ raw ∈ raws, ∀ x, raw[i]? = some x → x.isFinite = true

/-- A command within its envelope, as far as it is a number, after the
actions `raws`. -/
structure InMachineEnvelope (cfg : BeyondMimicConfig A.Number)
    (raws : List (List A.Number)) (motion : MotionCommand A.Number)
    (cmd : JointState double.Number) : Prop where
  name : cmd.name = cfg.robotJointNames.map
    (DataConverter.init.configure cfg).wireName
  length : cmd.position.length = cfg.robotJointNames.length
  /-- Where the base value and the scale of a joint are finite, its
  position is within the envelope or NaN, and NaN only when an answer
  for the joint was not finite. -/
  within : ∀ (c i : Nat) (joint : String),
    cfg.robotJointNames[c]? = some joint →
    cfg.jointNames[i]? = some joint →
    ∃ p b k, cmd.position[c]? = some p
      ∧ cfg.base motion i = some b ∧ cfg.actionScales[i]? = some k
      ∧ (b.isFinite = true → k.isFinite = true →
        (p = .nan ∨ Saturated cfg b k p)
          ∧ (Number.le 0 cfg.actionBeta = true →
            Number.le cfg.actionBeta 1 = true → FiniteAt raws i →
            Saturated cfg b k p))
  filler : ∀ (c : Nat) (joint : String),
    cfg.robotJointNames[c]? = some joint → joint ∉ cfg.jointNames →
    cmd.position[c]? = some (Scalar.widen (0 : A.Number))

/-- The two modes add in opposite orders, which is the same. -/
theorem positionOf_eq (residual : Bool) (b k x : A.Number) :
    positionOf cfg residual b k x
      = b + clamp x (-cfg.clipActions) cfg.clipActions * k := by
  unfold positionOf
  cases residual with
  | true =>
      rw [if_pos rfl]
      exact Number.add_swap _ _
  | false => rw [if_neg (by simp)]

/-- Whatever is remembered, the position is within the envelope, or it is
NaN as what is remembered is. -/
theorem positionOf_saturated {c b k : A.Value}
    (hclip : cfg.clipActions = .fin c) (hc : 0 ≤ c.val) (residual : Bool)
    (x : A.Number) :
    (x = .nan ∧ positionOf cfg residual (.fin b) (.fin k) x = .nan)
      ∨ Saturated cfg (.fin b) (.fin k) (Scalar.widen
        (positionOf cfg residual (.fin b) (.fin k) x)) := by
  rw [positionOf_eq, hclip]
  rcases clamp_machine hc x with ⟨hx, hnan⟩ | ⟨v, hv, hle⟩
  · left
    rw [hnan, Number.nan_mul, Number.add_nan]
    exact ⟨hx, rfl⟩
  · right
    obtain ⟨hlo, hhi⟩ := Number.mul_le (k := k) hle
    rw [hv]
    unfold Saturated
    rw [hclip, Number.sub_def]
    exact ⟨Number.convert_le (Number.fin_add_le b hlo),
      Number.convert_le (Number.fin_add_le b hhi)⟩

/-- What is remembered of a joint is a number, as long as its answers
are finite. -/
theorem memory_ne_nan (hb : Number.le 0 cfg.actionBeta = true)
    (hb₁ : Number.le cfg.actionBeta 1 = true)
    {raws : List (List A.Number)}
    (hsize : ∀ raw ∈ raws, raw.length = cfg.numDof) {i : Nat}
    (hi : i < cfg.numDof) (hfin : FiniteAt raws i) {x : A.Number}
    (hx : (memory cfg raws)[i]? = some x) : x ≠ .nan := by
  obtain ⟨b, hbeta, hb, hb₁⟩ := Number.fin_of_between hb hb₁
  rw [memory_getElem? hsize hi, hbeta] at hx
  cases hx
  apply Number.average_ne_nan hb hb₁
  intro r hr
  obtain ⟨raw, hraw, rfl⟩ := List.mem_map.mp hr
  have hlt : i < raw.length := hsize raw hraw ▸ hi
  rw [List.getD_eq_getElem?_getD, List.getElem?_eq_getElem hlt]
  exact hfin raw hraw _ (List.getElem?_eq_getElem hlt)

section Run

variable [Eigen A.Number] {net : Policy A.Number}

/-- Every command of every run, with a model that may answer anything:
its positions are NaN or within the envelope, measured from the motion
the node has after the tick. -/
theorem machine_envelope (hfin : cfg.clipActions.isFinite = true)
    (hclip : Number.le 0 cfg.clipActions = true)
    (hj : cfg.jointNames.Nodup) (hr : cfg.robotJointNames.Nodup)
    (hrobot : cfg.robotJointNames ≠ []) (hsized : cfg.Sized)
    (hnet : net.FullSize cfg.numDof cfg.numBodies) (s m : Int)
    (evs : List (Event double.Number)) :
    ∀ cmd ∈ published (logAt net (start cfg s m) evs .timer),
      ∃ n, (run net (start cfg s m) (evs ++ [.timer])).out = .ok n
        ∧ InMachineEnvelope cfg (processedActions
          (run net (start cfg s m) (evs ++ [.timer])).log)
            n.converter.command cmd := by
  intro cmd hcmd
  obtain ⟨n, hrun, hent⟩ := published_entry hj hr hrobot hsized hnet hcmd
  have hmem := memory_run (hsized.runnable (Or.inr hrobot)) hnet hrun
  obtain ⟨c, hc⟩ := Number.isFinite_iff.mp hfin
  rw [hc] at hclip
  have hc₀ : 0 ≤ c.val := Number.fin_le_fin.mp hclip
  refine ⟨n, hrun, hent.name, hent.length, ?_, hent.filler⟩
  intro j i joint hj hi
  obtain ⟨x, b, k, hx, hb, hk, hp⟩ := hent.entry j i joint hj hi
  refine ⟨_, b, k, hp, hb, hk, ?_⟩
  intro hbfin hkfin
  obtain ⟨b, rfl⟩ := Number.isFinite_iff.mp hbfin
  obtain ⟨k, rfl⟩ := Number.isFinite_iff.mp hkfin
  have hcases := positionOf_saturated hc hc₀ (b := b) (k := k)
    (cfg.useResidualAction && !n.converter.command.empty) x
  constructor
  · rcases hcases with ⟨-, hnan⟩ | hsat
    · exact Or.inl (congrArg Scalar.widen hnan)
    · exact Or.inr hsat
  · intro hbeta hbeta₁ hans
    rw [hmem.memory] at hx
    have hlt : i < cfg.numDof := (List.getElem?_eq_some_iff.mp hi).1
    have hne := memory_ne_nan hbeta hbeta₁ hmem.sized hlt hans hx
    rcases hcases with ⟨hnan, -⟩ | hsat
    · exact absurd hnan hne
    · exact hsat

end Run

-- ============================================================ instances

/-- Two joints in single precision, of which a third and a tenth are
rounded. -/
def thirdsFloat : BeyondMimicConfig float.Number :=
  { BeyondMimicConfig.init with
    jointNames := ["hip", "knee"]
    defaultDofPos := [Scalar.ofRat (1 / 10), -1]
    actionScales := [Scalar.ofRat (1 / 4), 1]
    robotJointNames := ["knee", "hip"]
    actionBeta := Scalar.ofRat (1 / 3) }

/-- A model that asks the hip for a tenth more each timestep, and
answers NaN for the knee from the second timestep on. -/
def failing : Policy float.Number :=
  Policy.ofFun 13 fun _ t =>
    { actions := [Scalar.ofRat (t / 10),
        if t < 1 then .inf true else .nan] }

theorem failing_fullSize :
    failing.FullSize thirdsFloat.numDof thirdsFloat.numBodies := by
  intro obs t r h
  cases h
  exact ⟨rfl, Or.inl rfl⟩

/-- Both topics with a reading that is not a number, and two timer
events. -/
def brokenSensor : List (Event double.Number) :=
  [.jointState { name := ["hip"], position := [.nan] },
    .imu ⟨⟨1, 0, 0, 0⟩, ⟨0, 0, 0⟩⟩, .timer, .timer]

theorem machine_envelope_failing :
    ∃ cmd ∈ published (logAt failing (start thirdsFloat 0 (-1))
        brokenSensor .timer),
      ∃ n, (run failing (start thirdsFloat 0 (-1))
          (brokenSensor ++ [.timer])).out = .ok n
        ∧ InMachineEnvelope thirdsFloat (processedActions
          (run failing (start thirdsFloat 0 (-1))
            (brokenSensor ++ [.timer])).log) n.converter.command cmd := by
  have hpub : published (logAt failing (start thirdsFloat 0 (-1))
      brokenSensor .timer) ≠ [] := by decide +kernel
  obtain ⟨cmd, hcmd⟩ := List.exists_mem_of_ne_nil _ hpub
  exact ⟨cmd, hcmd, machine_envelope (by decide +kernel)
    (by decide +kernel) (by decide) (by decide) (by decide) ⟨rfl, rfl⟩
    failing_fullSize 0 (-1) brokenSensor cmd hcmd⟩

/-- NaN gets past the clip, the infinity before it does not. -/
example : (published (run failing (start thirdsFloat 0 (-1))
    (brokenSensor ++ [.timer])).log).map
      (fun cmd => cmd.position.map Number.isFinite)
    = [[true, true], [false, true]] := by
  decide +kernel

end RLControllerNode

end RlDeploy
