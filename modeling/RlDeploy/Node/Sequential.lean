/-
The controller as a sequential program: what the callbacks are for.

The state of this program is the history of what came in: the last
message of each topic, and the results of all inference calls so far,
the dry run's first. Everything else is computed from the history when
it is needed. The node keeps it spread over its own and the converter's
members and updates it at different points of a tick; that this comes to
the same is proved in `Proofs/Lag.lean`.

# One tick of motion lag

The observation of tick `k` is built from the results *before* it, the
dry run and ticks `0` to `k - 1`; the command of tick `k` from the
results up to *and including* its own. So the motion that a tick's model
call outputs is what the tick's command refers to, but the observation
that follows is the next tick's.
-/
import RlDeploy.Node.Basic

namespace RlDeploy

open Lib

variable {F D : Type} [Scalar F D] [Eigen F]

/-- The alignment after the dry run: based on the anchor's pose when the
motion `c` has bodies, and `old` otherwise. -/
def anchorAlignment (cfg : BeyondMimicConfig F)
    (old : TransformAlignment F) (c : MotionCommand F) :
    TransformAlignment F :=
  if c.empty || decide (cfg.numBodies = 0) then old
  else
    match c.bodyPos cfg.anchorBodyIndex, c.bodyQuat cfg.anchorBodyIndex with
    | .ok pos, .ok quat => TransformAlignment.setBase quat pos true true
    | _, _ => old

namespace Sequential

/-- What came in so far. -/
structure History (F D : Type) where
  jointState : Option (JointState D) := none
  imu : Option (Imu D) := none
  results : List (InferenceResult F) := []

-- ============================================ computed from the results

omit [Scalar F D] [Eigen F] in
/-- The motion command: the last motion that is not empty. -/
def motionCommand (rs : List (InferenceResult F)) : MotionCommand F :=
  ((rs.map InferenceResult.motion).filter
    fun c => !c.empty).getLast?.getD {}

omit [Eigen F] in
/-- The smoothed action, from zero over all results. -/
def smoothedAction (cfg : BeyondMimicConfig F)
    (rs : List (InferenceResult F)) : List F :=
  rs.foldl
    (fun last r => List.zipWith
      (fun l a => (1 - cfg.actionBeta) * l + cfg.actionBeta * a)
      last r.actions)
    (List.replicate cfg.numDof 0)

/-- The alignment: the dry run's, and the identity without it. -/
def alignment (cfg : BeyondMimicConfig F) :
    List (InferenceResult F) → TransformAlignment F
  | [] => TransformAlignment.init
  | dry :: _ =>
      anchorAlignment cfg.setAnchorBodyIndex TransformAlignment.init
        dry.motion

/-- A converter with these three, as `cfg` configures it. -/
def converter (cfg : BeyondMimicConfig F)
    (rs : List (InferenceResult F)) : DataConverter F :=
  { DataConverter.init.configure cfg with
    command := motionCommand rs
    lastAction := smoothedAction cfg rs
    initAlign := alignment cfg rs }

/-- The observation after the results `rs`. -/
def observation (cfg : BeyondMimicConfig F)
    (rs : List (InferenceResult F)) (js : JointState D) (imu : Imu D) :
    Except Fault (List F) :=
  (converter cfg rs).buildObservation imu.angularVelocity.narrow
    imu.orientation.narrow js.name js.position js.velocity

/-- The command after the results `rs`: the last smoothed action,
clipped and scaled, as a target and a message. -/
def command (cfg : BeyondMimicConfig F)
    (rs : List (InferenceResult F)) : Except Fault (JointState D) := do
  let scaled := List.zipWith
    (fun a k => clamp a (-cfg.clipActions) cfg.clipActions * k)
    (smoothedAction cfg rs) cfg.actionScales
  let pdTarget ← (converter cfg rs).computePdTarget scaled
  return (converter cfg rs).actionToJointCmd pdTarget

-- ========================================================== the program

/-- One event. A timer event with both topics received asks the model:
the first time on zeros, then on an observation, `k` timesteps after the
start in tick `k`. -/
def step (cfg : BeyondMimicConfig F) (net : Policy F) (start : Int)
    (h : History F D) :
    Event D → Logged (Act F D) Fault (History F D)
  | .jointState msg => return { h with jointState := some msg }
  | .imu msg => return { h with imu := some msg }
  | .timer =>
      match h.jointState, h.imu with
      | some js, some imu =>
          match h.results with
          | [] => do
              let zeros := List.replicate net.obsSize 0
              Logged.emit (.infer zeros start)
              let dry ← net.infer zeros start
              Logged.emit (.process dry.actions)
              return { h with results := [dry] }
          | dry :: rs => do
              let obs ← observation cfg (dry :: rs) js imu
              let timestep := start + (rs.length : Int)
              Logged.emit (.infer obs timestep)
              let r ← net.infer obs timestep
              Logged.emit (.process r.actions)
              let cmd ← command cfg (dry :: rs ++ [r])
              Logged.emit (.publish cmd)
              return { h with results := dry :: rs ++ [r] }
      | _, _ => return h

def run (cfg : BeyondMimicConfig F) (net : Policy F) (start : Int)
    (evs : List (Event D)) : Logged (Act F D) Fault (History F D) :=
  Logged.run (step cfg net start) {} evs

end Sequential

end RlDeploy
