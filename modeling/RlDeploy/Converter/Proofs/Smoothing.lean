/-
Action smoothing is an exponential moving average.

Three values belong to one inference: what `processAction` remembers,
what it returns, and what the next observation shows as the last action.
The recurrence runs over the remembered value alone. It is stored before
the clip and the scale, so however much of an action is cut off, the
next one is averaged with all of it (`remembered`).

No other call touches the value, but one cannot follow it everywhere:
without robot joint names the adapters are never built, and the next
`buildObservation` runs past the unbuilt adapter's empty result. So the
statement `Averages`, which speaks of that observation, holds exactly
on the configurations that have an observation (`averages_iff`).
-/
import RlDeploy.Lib.Ema
import RlDeploy.Converter.Proofs.Layout
import RlDeploy.Converter.Proofs.OneToOne

namespace RlDeploy

open Lib

namespace DataConverter

-- =========================================================== the history

section Processed

variable {F D : Type} [Scalar F D]

omit [Scalar F D] in
/-- The raw actions among the calls. -/
def processed (ops : List (Op F D)) : List (List F) :=
  ops.filterMap fun
    | .processAction raw => some raw
    | _ => none

omit [Scalar F D] in
theorem processed_append (ops ops' : List (Op F D)) :
    processed (ops ++ ops') = processed ops ++ processed ops' :=
  List.filterMap_append ..

/-- `processAction` is the only call that changes the last action. -/
theorem lastAction_step [Eigen F] {dc dc' : DataConverter F}
    {op : Op F D} (h : (step dc op).out = .ok dc') :
    (∃ raw, op = .processAction raw
        ∧ dc'.lastAction = dc.smoothed raw)
      ∨ (processed [op] = [] ∧ dc'.lastAction = dc.lastAction) := by
  cases op with
  | setMotionCommand cmd =>
      cases h
      exact Or.inr ⟨rfl, rfl⟩
  | setBase quat pos yawOnly xyOnly =>
      cases h
      exact Or.inr ⟨rfl, rfl⟩
  | buildObservation w q names pos vel =>
      unfold step at h
      cases hobs : dc.buildObservation w q names pos vel with
      | error e => simp [hobs] at h
      | ok obs =>
          simp [hobs] at h
          exact Or.inr ⟨rfl, by rw [h]⟩
  | processAction raw =>
      unfold step at h
      cases hp : dc.processAction raw with
      | error e => simp [hp] at h
      | ok r =>
          obtain ⟨dc₁, action⟩ := r
          obtain ⟨hdc₁, -, -⟩ := processAction_ok hp
          simp [hp] at h
          exact Or.inl ⟨raw, rfl, by rw [← h, hdc₁]⟩
  | computePdTarget action =>
      unfold step at h
      cases ht : dc.computePdTarget action with
      | error e => simp [ht] at h
      | ok target =>
          simp [ht] at h
          exact Or.inr ⟨rfl, by rw [h]⟩
  | actionToJointCmd target =>
      cases h
      exact Or.inr ⟨rfl, rfl⟩

end Processed

-- ========================================================== the average

/-- Component `i` of each raw action. -/
def component (raws : List (List ℚ)) (i : Nat) : List ℚ :=
  raws.map fun raw => raw.getD i 0

/-- The exponential moving average: each value with the weight
`beta * (1 - beta) ^ j`, where `j` values came after it. -/
def average (beta : ℚ) (xs : List ℚ) : ℚ :=
  ∑ j ∈ Finset.range xs.length,
    beta * (1 - beta) ^ (xs.length - 1 - j) * xs.getD j 0

/-- What the converter `dc` remembers, shows and returns after `ops`. -/
structure Averages [Eigen ℚ] (cfg : BeyondMimicConfig ℚ)
    (ops : List (Op ℚ ℚ)) (dc : DataConverter ℚ) : Prop where
  /-- The last-action block of the next observation, whatever the
  message. -/
  observed : ∀ (w : Vec3 ℚ) (q : Quat ℚ) (names : List String)
    (pos vel : List ℚ),
    ∃ obs, dc.buildObservation w q names pos vel = .ok obs
      ∧ ∀ i, i < cfg.numDof →
        (block obs (dc.anchorEnd + 3 + 2 * cfg.numDof) cfg.numDof)[i]?
          = some (average cfg.actionBeta (component (processed ops) i))
  /-- For a weight between zero and one it is between the least and the
  greatest of zero and the raw values. -/
  between : 0 ≤ cfg.actionBeta → cfg.actionBeta ≤ 1 →
    ∀ i, i < cfg.numDof →
      (component (processed ops) i).foldr min 0
          ≤ average cfg.actionBeta (component (processed ops) i)
        ∧ average cfg.actionBeta (component (processed ops) i)
          ≤ (component (processed ops) i).foldr max 0
  /-- The next action is averaged in, and returned clipped and
  scaled. -/
  returned : ∀ raw : List ℚ, raw.length = cfg.numDof →
    ∃ dc' action, dc.processAction raw = .ok (dc', action)
      ∧ action.length = cfg.numDof
      ∧ ∀ (i : Nat) (k : ℚ), cfg.actionScales[i]? = some k →
        action[i]? = some (clamp (average cfg.actionBeta
          (component (processed ops ++ [raw]) i))
            (-cfg.clipActions) cfg.clipActions * k)

variable {cfg : BeyondMimicConfig ℚ} {dc : DataConverter ℚ}

theorem component_snoc (raws : List (List ℚ)) (raw : List ℚ) (i : Nat) :
    component (raws ++ [raw]) i = component raws i ++ [raw.getD i 0] := by
  unfold component
  rw [List.map_append]
  rfl

theorem average_eq (beta : ℚ) (xs : List ℚ) :
    average beta xs = ema beta xs := (ema_eq_sum beta xs).symm

/-- One more raw action, at one joint. -/
theorem smoothed_average
    (hset : dc.SameSetup (init.configure cfg)) {raws : List (List ℚ)}
    {raw : List ℚ} (hraw : raw.length = cfg.numDof) {i : Nat}
    (hi : i < cfg.numDof)
    (hlast : dc.lastAction[i]?
      = some (average cfg.actionBeta (component raws i))) :
    (dc.smoothed raw)[i]? = some (average cfg.actionBeta
      (component (raws ++ [raw]) i)) := by
  have hn : dc.numDof = cfg.numDof := hset.joints
  have hbeta : dc.cfg.actionBeta = cfg.actionBeta := by
    obtain ⟨k, hk⟩ := hset.config
    rw [hk]
  have hget : raw[i]? = some (raw.getD i 0) := by
    rw [List.getD_eq_getElem?_getD,
      List.getElem?_eq_getElem (by omega)]
    rfl
  unfold smoothed
  rw [List.getElem?_zipWith, List.getElem?_take_of_lt (by omega),
    List.getElem?_take_of_lt (by omega), hlast, hget, hbeta,
    component_snoc, average_eq, average_eq, ema_snoc]

section Runs

variable [Eigen ℚ] {ops : List (Op ℚ ℚ)}

/-- What is remembered after every run of well-sized calls is the
average of all raw actions, at every joint. -/
theorem remembered
    (hops : ∀ op ∈ ops, op.WellSized cfg.numDof cfg.numBodies)
    (h : (run (init.configure cfg) ops).out = .ok dc) :
    ∀ i, i < cfg.numDof → dc.lastAction[i]?
      = some (average cfg.actionBeta (component (processed ops) i)) := by
  refine Logged.run_past (fun (ops : List (Op ℚ ℚ)) _ dc =>
    (∀ op ∈ ops, op.WellSized cfg.numDof cfg.numBodies) →
      ∀ i, i < cfg.numDof → dc.lastAction[i]? = some
        (average cfg.actionBeta (component (processed ops) i)))
    ?_ ?_ h hops
  · intro _ i hi
    rw [configure_lastAction, List.getElem?_replicate, if_pos hi,
      average_eq]
    rfl
  · intro ops dc₁ op dc₂ h₁ ih h₂ hops i hi
    have hlast := ih (fun o ho => hops o (List.mem_append_left _ ho)) i hi
    obtain ⟨hset, -⟩ := run_keeps (configure_lastLength init cfg) h₁
    rw [processed_append]
    rcases lastAction_step h₂ with ⟨raw, rfl, hsmooth⟩ | ⟨hnil, hsame⟩
    · have hraw : raw.length = cfg.numDof :=
        hops (.processAction raw) (by simp)
      rw [hsmooth]
      exact smoothed_average hset hraw hi hlast
    · rw [hnil, hsame, List.append_nil]
      exact hlast

/-- On a configuration that can be observed, every run averages. -/
theorem averages_of_runnable (hsized : cfg.Sized)
    (hrobot : cfg.numDof = 0 ∨ cfg.robotJointNames ≠ [])
    (hops : ∀ op ∈ ops, op.WellSized cfg.numDof cfg.numBodies) :
    ∃ dc, (run (init.configure cfg) ops).out = .ok dc
      ∧ Averages cfg ops dc := by
  have hrunnable := hsized.runnable hrobot
  have hready := configure_ready init hrunnable
  have hn₀ := configure_numDof init cfg
  obtain ⟨dc, hrun, hs⟩ := run_configure_ok hrunnable hops
  have hlast := remembered hops hrun
  have hn : dc.numDof = cfg.numDof := hs.setup.joints
  refine ⟨dc, hrun, ?_, ?_, ?_⟩
  · intro w q names pos vel
    obtain ⟨obs, hobs, hlay⟩ :=
      buildObservation_layout hready hs w q names pos vel
    refine ⟨obs, hobs, fun i hi => ?_⟩
    rw [← hn, hlay.lastAction]
    exact hlast i hi
  · intro hb hb₁ i _
    rw [average_eq]
    exact ema_between hb hb₁ _
  · intro raw hraw
    obtain ⟨hp, -, hlen⟩ := hs.processAction hready.scales
      (hraw.trans hn₀.symm)
    refine ⟨_, _, hp, hlen.trans hn₀, fun i k hk => ?_⟩
    have hi : i < cfg.numDof := by
      rw [← hsized.actionScales]
      exact (List.getElem?_eq_some_iff.mp hk).1
    obtain ⟨j, hcfg⟩ := hs.setup.config
    unfold scaled
    rw [List.getElem?_zipWith,
      smoothed_average hs.setup hraw hi (hlast i hi),
      List.getElem?_take_of_lt (by omega), hcfg]
    dsimp only
    rw [hk]

/-- Smoothing is the moving average of everything inferred, observed and
returned as such, exactly on the configurations with robot joint names
(or without joints). -/
theorem averages_iff (hsized : cfg.Sized)
    (hops : ∀ op ∈ ops, op.WellSized cfg.numDof cfg.numBodies) :
    (∃ dc, (run (init.configure cfg) ops).out = .ok dc
        ∧ Averages cfg ops dc)
      ↔ cfg.numDof = 0 ∨ cfg.robotJointNames ≠ [] := by
  constructor
  · intro h
    obtain ⟨dc, hrun, havg⟩ := h
    obtain ⟨hset, -⟩ := run_keeps (configure_lastLength init cfg) hrun
    obtain ⟨obs, hobs, -⟩ :=
      havg.observed ⟨0, 0, 0⟩ ⟨1, 0, 0, 0⟩ [] [] []
    have hread := buildObservation_isOk_iff.mp ⟨obs, hobs⟩
    have hscales : dc.numDof ≤ dc.cfg.actionScales.length := by
      obtain ⟨k, hk⟩ := hset.config
      rw [hset.joints, hk]
      exact hsized.actionScales.ge
    exact (hset.runnable hread.tarLen hread.default hscales).robot
  · intro h
    exact averages_of_runnable hsized h hops

end Runs

theorem averages_iff_crossed :
    (∃ dc, (run (init.configure crossed) crossedOps).out = .ok dc
        ∧ Averages crossed crossedOps dc)
      ↔ crossed.numDof = 0 ∨ crossed.robotJointNames ≠ [] :=
  averages_iff crossed_sized crossedOps_wellSized

/-- Without robot joint names an action is processed, but no observation
shows it: the observation reads past the adapter that was not built. -/
theorem plain_unobserved :
    plain.actionScales.length = plain.numDof
      ∧ plain.defaultDofPos.length = plain.numDof
      ∧ ((run (init.configure plain) [.processAction [1, -1]]).out.map
          fun dc => dc.lastAction) = .ok [1, -1]
      ∧ ((run (init.configure plain) [.processAction [1, -1]]).out.bind
          fun dc => dc.buildObservation ⟨0, 0, 0⟩ ⟨1, 0, 0, 0⟩
            ["hip", "knee"] [0, 0] [0, 0])
        = .error (.index .dofPosModel) := by
  refine ⟨rfl, rfl, ?_, ?_⟩
  · decide +kernel
  · decide +kernel

end DataConverter

end RlDeploy
