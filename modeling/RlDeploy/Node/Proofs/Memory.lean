/-
What the node remembers of a model that is a function of its inputs.

The converter a run ends with is the one its history determines: the
last motion that was not empty, the smoothed actions, and the alignment
of the dry run (`Sequential.converter`). `Lag` proves the two programs
equal in lockstep where no run fails and none ends. Here the node is
alone, and the fact is a plain invariant of its returned runs, whatever
the sizes, the configuration and the last timestep (`remembers_run`).
-/
import RlDeploy.Node.Proofs.Schedule

namespace RlDeploy

open Lib

variable {F D : Type} [Scalar F D] [Eigen F]

namespace RLControllerNode

open RlDeploy.Sequential

variable {cfg : BeyondMimicConfig F}
  {f : List F → Int → InferenceResult F} {obsSize : Nat} {s m : Int}
  {evs : List (Event D)} {log l : List (Act F D)}
  {n n' : RLControllerNode F D}

/-- A dry run that returned was aligned to its anchor: where the anchor
cannot be read, nothing was. -/
theorem initMotion_ok_eq {dc dc' : DataConverter F}
    {r : InferenceResult F} (h : initMotion dc r = .ok dc') :
    dc' = { updateMotion dc r with
      initAlign := anchorAlignment dc.cfg dc.initAlign r.motion } := by
  unfold initMotion updateMotion anchorAlignment at *
  cases he : r.motion.empty with
  | true =>
      have hpos : r.jointPos.isEmpty = true := he
      simp only [hpos, Bool.not_true, Bool.false_eq_true, if_false,
        Bool.true_or, if_true] at h ⊢
      cases h
      rfl
  | false =>
      have hpos : r.jointPos.isEmpty = false := he
      have hset : (dc.setMotionCommand r.motion).cfg = dc.cfg := rfl
      simp only [hpos, hset, Bool.not_false, if_true] at h ⊢
      by_cases hbodies : dc.cfg.numBodies = 0
      case pos =>
        simp only [hbodies, Nat.lt_irrefl, decide_false, Bool.false_and,
          Bool.false_eq_true, if_false] at h
        cases h
        simp [hbodies]
        rfl
      simp only [hbodies, decide_false, Bool.or_false,
        Bool.false_eq_true, if_false]
      cases hw : r.motion.bodyPosW.isEmpty with
      | true =>
          simp only [hw, Bool.not_true, Bool.and_false,
            Bool.false_eq_true, if_false] at h
          cases h
          cases hp : r.motion.bodyPos dc.cfg.anchorBodyIndex with
          | error e => rfl
          | ok pos =>
              unfold MotionCommand.bodyPos at hp
              simp only [bind_eq_ok_iff] at hp
              obtain ⟨x, hx, -⟩ := hp
              rw [List.isEmpty_iff.mp hw] at hx
              unfold readInt at hx
              split at hx
              · cases hx
              · cases hx
      | false =>
          simp only [hw, Nat.pos_of_ne_zero hbodies, Bool.not_false,
            decide_true, Bool.and_true, if_true, bind_eq_ok_iff] at h
          obtain ⟨pos, hp, quat, hq, h⟩ := h
          cases h
          rw [hp, hq]

/-- The node's converter is the one of the answers in the log. -/
structure Remembers (cfg : BeyondMimicConfig F)
    (f : List F → Int → InferenceResult F) (log : List (Act F D))
    (n : RLControllerNode F D) : Prop where
  converter : n.converter = Sequential.converter cfg (answers f log)
  last : (smoothedAction cfg (answers f log)).length = cfg.numDof

/-- `processAction` sets the last action of the longer history. -/
theorem Remembers.processed {rs : List (InferenceResult F)}
    {r : InferenceResult F} {dc dc₂ : DataConverter F} {scaled : List F}
    (hlast : (smoothedAction cfg rs).length = cfg.numDof)
    (hdc : dc = { updateMotion (Sequential.converter cfg rs) r with
      initAlign := alignment cfg (rs ++ [r]) })
    (hp : dc.processAction r.actions = .ok (dc₂, scaled)) :
    dc₂ = Sequential.converter cfg (rs ++ [r])
      ∧ (smoothedAction cfg (rs ++ [r])).length = cfg.numDof := by
  obtain ⟨rfl, -, hlen⟩ := DataConverter.processAction_ok hp
  have hnext := converter_next (r := r) hlast
  have heq : { dc with lastAction := dc.smoothed r.actions }
      = Sequential.converter cfg (rs ++ [r]) := by
    rw [← hnext, hdc]
    rfl
  have hn : dc.numDof = cfg.numDof := by
    rw [hdc]
    exact (setup_converter cfg rs r).joints
  refine ⟨heq, ?_⟩
  rw [← hn, ← hlen]
  exact congrArg (fun c => c.lastAction.length) heq.symm

/-- A timer callback that returns adds its answer to what the node
remembers. -/
theorem Remembers.timerStep (h : Remembers cfg f log n)
    (ha : Asked (Policy.ofFun obsSize f) s m evs log)
    (ht : Track s m evs n)
    (hset : n.converter.SameSetup (DataConverter.init.configure cfg))
    (hts : TimerStep (Policy.ofFun obsSize f) n l n') :
    Remembers cfg f (log ++ l) n' := by
  cases hts with
  | waiting => rwa [List.append_nil]
  | done => rwa [List.append_nil]
  | @init hw hi r dc₁ dc₂ scaled hr hm hp =>
      cases hr
      have hnil : answers f log = [] := by
        unfold answers
        rw [ha.none (ht.ready_zero hi)]
        rfl
      have hconv := h.converter
      have hlast := h.last
      rw [hnil] at hconv hlast
      have hans : answers f (log ++ [.infer (List.replicate obsSize 0)
          n.timestep, .process (f (List.replicate obsSize 0)
            n.timestep).actions])
          = [] ++ [f (List.replicate obsSize 0) n.timestep] := by
        rw [answers_append, hnil]
        rfl
      have hmotion := initMotion_ok_eq hm
      obtain ⟨hdc, hlen⟩ := Remembers.processed hlast (by
        rw [hmotion, hset.cfg, DataConverter.configure_cfg, hconv]
        rfl) hp
      refine ⟨?_, ?_⟩
      · show dc₂ = Sequential.converter cfg (answers f (log ++ _))
        rw [show (Policy.ofFun obsSize f).obsSize = obsSize from rfl,
          hans]
        exact hdc
      · rw [show (Policy.ofFun obsSize f).obsSize = obsSize from rfl,
          hans]
        exact hlen
  | @tick hw hi hd obs r dc₂ scaled target ho hr hp htar =>
      cases hr
      have hne : answers f log ≠ [] := by
        unfold answers
        rw [ha.dryRun (ht.ready_pos hi)]
        simp
      have hans : answers f (log ++ [.infer obs n.timestep,
          .process (f obs n.timestep).actions,
          .publish (dc₂.actionToJointCmd target)])
          = answers f log ++ [f obs n.timestep] := by
        rw [answers_append]
        rfl
      obtain ⟨hdc, hlen⟩ := Remembers.processed h.last (by
        rw [alignment_snoc hne, h.converter, updateMotion_eq]
        rfl) hp
      refine ⟨?_, ?_⟩
      · rw [advance_converter, hans]
        exact hdc
      · rw [hans]
        exact hlen

/-- The converter at the end of every run that returns, on every
configuration and for every function as the model. -/
theorem remembers_run {evs : List (Event D)} {n : RLControllerNode F D}
    (h : (run (Policy.ofFun obsSize f) (start cfg s m) evs).out = .ok n) :
    Remembers cfg f
      (run (Policy.ofFun obsSize f) (start cfg s m) evs).log n := by
  refine Logged.run_past (fun _ log n => Remembers cfg f log n) ?_ ?_ h
  · refine ⟨(converter_nil cfg).symm, ?_⟩
    show (List.replicate cfg.numDof (0 : F)).length = cfg.numDof
    exact List.length_replicate
  · intro evs n₁ e n' h₁ hrem h₂
    cases e with
    | jointState msg =>
        cases h₂
        show Remembers cfg f (_ ++ []) _
        rw [List.append_nil]
        exact ⟨hrem.converter, hrem.last⟩
    | imu msg =>
        cases h₂
        show Remembers cfg f (_ ++ []) _
        rw [List.append_nil]
        exact ⟨hrem.converter, hrem.last⟩
    | timer =>
        exact hrem.timerStep (asked_run h₁) (track_run h₁)
          (run_setup h₁) (timerStep_of_ok h₂)

end RLControllerNode

end RlDeploy
