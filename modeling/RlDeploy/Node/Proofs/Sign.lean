/-
The sign of a quaternion.

A quaternion and its negative are one rotation, and neither an IMU nor a
model promises which of the two it gives: a sensor may change over from
one message to the next, a model from one answer to the next. The node
compares no signs and chooses none, so it can only be right if no sign
matters. None does: with the signs turned over anywhere, in any messages
and in the answers for any bodies, a run does the same (`signs_unseen`).

What it takes is that the Eigen operations go along with the sign
(`Eigen.SignBlind`): the inverse and the product turn over with their
argument, the rotated vector and the matrix stay. The formulas do so over
every field, and rounded to any format, since a rounding is odd. Over the
machine's floats that holds up to the sign of a zero.

The alignment is the place to look at. It is made of the dry run's
answer alone and kept, but through a matrix, so it has no sign.
-/
import RlDeploy.Node.Proofs.View
import RlDeploy.Rounded

namespace RlDeploy

open Lib

-- ===================================================== turned over

/-- The other quaternion of the same rotation. -/
def Quat.neg {F : Type} [Neg F] (q : Quat F) : Quat F :=
  ⟨-q.w, -q.x, -q.y, -q.z⟩

/-- The same quaternion, or the other one of its rotation. -/
def Quat.SameRotation {F : Type} [Neg F] (q q' : Quat F) : Prop :=
  q' = q ∨ q' = q.neg

/-- The Eigen operations go along with the sign of a quaternion. -/
structure Eigen.SignBlind (F : Type) [Neg F] [Eigen F] : Prop where
  inverse : ∀ q : Quat F, Eigen.inverse q.neg = (Eigen.inverse q).neg
  mul_left : ∀ p q : Quat F, Eigen.mul p.neg q = (Eigen.mul p q).neg
  mul_right : ∀ p q : Quat F, Eigen.mul p q.neg = (Eigen.mul p q).neg
  rotate : ∀ (q : Quat F) (v : Vec3 F),
    Eigen.rotate q.neg v = Eigen.rotate q v
  toRotationMatrix : ∀ q : Quat F,
    Eigen.toRotationMatrix q.neg = Eigen.toRotationMatrix q

/-- The formulas do, whatever is made of the angles. -/
theorem Eigen.formulas_signBlind {F : Type} [Field F]
    (eulerAngles : Mat3 F → Vec3 F) (angleAxisZ : F → Quat F) :
    @Eigen.SignBlind F _ (Eigen.formulas eulerAngles angleAxisZ) := by
  let _ := Eigen.formulas eulerAngles angleAxisZ
  constructor
  case inverse =>
    intro q
    simp only [Eigen.inverse, Quat.neg, neg_mul_neg, neg_div]
  case mul_left =>
    intro p q
    simp only [Eigen.mul, Quat.neg, Quat.mk.injEq]
    refine ⟨?_, ?_, ?_, ?_⟩ <;> ring
  case mul_right =>
    intro p q
    simp only [Eigen.mul, Quat.neg, Quat.mk.injEq]
    refine ⟨?_, ?_, ?_, ?_⟩ <;> ring
  case rotate =>
    intro q v
    simp only [Eigen.rotate, Quat.neg, Vec3.mk.injEq]
    refine ⟨?_, ?_, ?_⟩ <;> ring
  case toRotationMatrix =>
    intro q
    simp only [Eigen.toRotationMatrix, Quat.neg, neg_mul_neg]

section Rounded

variable {R : Rounding ℚ}

/-- The coefficients as exact numbers. -/
def Quat.exact (q : Quat R.Value) : Quat ℚ :=
  ⟨q.w.val, q.x.val, q.y.val, q.z.val⟩

def Vec3.exact (v : Vec3 R.Value) : Vec3 ℚ := ⟨v.x.val, v.y.val, v.z.val⟩

/-- The coefficients rounded. -/
def Quat.rounded (R : Rounding ℚ) (q : Quat ℚ) : Quat R.Value :=
  ⟨.of R q.w, .of R q.x, .of R q.y, .of R q.z⟩

def Vec3.rounded (R : Rounding ℚ) (v : Vec3 ℚ) : Vec3 R.Value :=
  ⟨.of R v.x, .of R v.y, .of R v.z⟩

theorem Quat.rounded_neg (q : Quat ℚ) :
    Quat.rounded R q.neg = (Quat.rounded R q).neg := by
  unfold Quat.rounded Quat.neg
  simp only [Rounding.Value.of_neg]

/-- Rounded Eigen goes along with the sign too: a rounding is odd. -/
theorem Eigen.rounded_signBlind (R : Rounding ℚ) :
    @Eigen.SignBlind R.Value _ (Eigen.rounded R) := by
  let _ := Eigen.rounded R
  have hexact : Eigen.SignBlind ℚ := Eigen.formulas_signBlind _ _
  constructor
  case inverse =>
    intro q
    show Quat.rounded R (Eigen.inverse q.exact.neg)
      = (Quat.rounded R (Eigen.inverse q.exact)).neg
    rw [hexact.inverse, Quat.rounded_neg]
  case mul_left =>
    intro p q
    show Quat.rounded R (Eigen.mul p.exact.neg q.exact)
      = (Quat.rounded R (Eigen.mul p.exact q.exact)).neg
    rw [hexact.mul_left, Quat.rounded_neg]
  case mul_right =>
    intro p q
    show Quat.rounded R (Eigen.mul p.exact q.exact.neg)
      = (Quat.rounded R (Eigen.mul p.exact q.exact)).neg
    rw [hexact.mul_right, Quat.rounded_neg]
  case rotate =>
    intro q v
    show Vec3.rounded R (Eigen.rotate q.exact.neg v.exact)
      = Vec3.rounded R (Eigen.rotate q.exact v.exact)
    rw [hexact.rotate]
  case toRotationMatrix =>
    intro q
    show Mat3.mk
        (Vec3.rounded R (Eigen.toRotationMatrix q.exact.neg).row0)
        (Vec3.rounded R (Eigen.toRotationMatrix q.exact.neg).row1)
        (Vec3.rounded R (Eigen.toRotationMatrix q.exact.neg).row2)
      = _
    rw [hexact.toRotationMatrix]
    rfl

end Rounded

-- ============================================================ the view

section Unseen

variable {F D : Type} [Scalar F D] [Eigen F]

/-- The relative pose is the same rotation and the same displacement. -/
theorem subtractFrameTransforms_sameRotation
    (hE : Eigen.SignBlind F) (t01 t02 : Vec3 F) {q01 q01' q02 q02' : Quat F}
    (h₁ : q01.SameRotation q01') (h₂ : q02.SameRotation q02') :
    (subtractFrameTransforms t01 q01' t02 q02').1
        = (subtractFrameTransforms t01 q01 t02 q02).1
      ∧ matrixFromQuat (subtractFrameTransforms t01 q01' t02 q02').2
        = matrixFromQuat (subtractFrameTransforms t01 q01 t02 q02).2 := by
  unfold subtractFrameTransforms matrixFromQuat
  dsimp only
  rcases h₁ with rfl | rfl
  · refine ⟨rfl, ?_⟩
    rcases h₂ with rfl | rfl
    · rfl
    · rw [hE.mul_right, hE.toRotationMatrix]
  · rw [hE.inverse, hE.rotate, hE.mul_left, hE.toRotationMatrix]
    refine ⟨rfl, ?_⟩
    rcases h₂ with rfl | rfl
    · rfl
    · rw [hE.mul_right, hE.toRotationMatrix]

/-- Any sign of the orientations, and nothing else. -/
def View.signs (hE : Eigen.SignBlind F) (cfg : BeyondMimicConfig F) :
    View cfg where
  pos := Eq
  quat := Quat.SameRotation
  robot := Quat.SameRotation
  align := Eq
  robot_refl _ := Or.inl rfl
  base p p' q q' hp hq := by
    rw [← hp]
    rcases hq with rfl | rfl
    · rfl
    · -- the heading is taken from the matrix
      unfold TransformAlignment.setBase
      rw [hE.toRotationMatrix]
      rfl
  unseen a a' i i' p p' q q' ha hi hp hq := by
    have hquat : (a.alignQuat q).SameRotation (a.alignQuat q') := by
      rcases hq with rfl | rfl
      · exact Or.inl rfl
      · exact Or.inr (hE.mul_right _ q)
    obtain ⟨hpos, hmat⟩ := subtractFrameTransforms_sameRotation hE
      (if cfg.setAnchorBodyIndex.overrideRobotAnchorPos then a.alignPos p
        else Vec3.zero) (a.alignPos p) hi hquat
    rw [← ha, ← hp]
    unfold DataConverter.poseBlock
    dsimp only
    rw [hpos, hmat]

-- ============================================================ the runs

/-- A vector of quaternions, four values each, with those turned over
that `turned` says. -/
def turnOver (turned : Nat → Bool) (bodyQuatW : List F) : List F :=
  bodyQuatW.mapIdx fun i v => if turned (i / 4) then -v else v

/-- Two messages that differ in the sign of the orientation at most. -/
inductive SameButSign [Neg D] : Event D → Event D → Prop
  | jointState (msg : JointState D) :
      SameButSign (.jointState msg) (.jointState msg)
  | imu (msg : Imu D) {q : Quat D} (h : msg.orientation.SameRotation q) :
      SameButSign (.imu msg) (.imu { msg with orientation := q })
  | timer : SameButSign .timer .timer

omit [Eigen F] in
/-- A body's quaternion is the one it was, or that one turned over. -/
theorem bodyQuat_turnOver (turned : Nat → Bool) (c : MotionCommand F)
    (k : Nat) :
    ({ c with bodyQuatW := turnOver turned c.bodyQuatW } :
        MotionCommand F).bodyQuat k
      = (c.bodyQuat k).map fun q => if turned k then q.neg else q := by
  rw [MotionCommand.bodyQuat_natCast, MotionCommand.bodyQuat_natCast]
  have hread : ∀ j, j < 4 → Lib.read (Fault.index .bodyQuatW)
      (turnOver turned c.bodyQuatW) (4 * k + j)
      = (Lib.read (Fault.index .bodyQuatW) c.bodyQuatW (4 * k + j)).map
        fun v => if turned k then -v else v := by
    intro j hj
    have hk : (4 * k + j) / 4 = k := by omega
    unfold Lib.read turnOver
    rw [List.getElem?_mapIdx, hk]
    cases c.bodyQuatW[4 * k + j]? <;> rfl
  have h₀ := hread 0 (by omega)
  rw [Nat.add_zero] at h₀
  rw [h₀, hread 1 (by omega), hread 2 (by omega), hread 3 (by omega)]
  cases Lib.read (Fault.index .bodyQuatW) c.bodyQuatW (4 * k) with
  | error e => rfl
  | ok w =>
  cases Lib.read (Fault.index .bodyQuatW) c.bodyQuatW (4 * k + 1) with
  | error e => rfl
  | ok x =>
  cases Lib.read (Fault.index .bodyQuatW) c.bodyQuatW (4 * k + 2) with
  | error e => rfl
  | ok y =>
  cases Lib.read (Fault.index .bodyQuatW) c.bodyQuatW (4 * k + 3) with
  | error e => rfl
  | ok z => cases turned k <;> rfl

/-- Two motions that differ in signs are one in that view. -/
theorem View.signs_same (hE : Eigen.SignBlind F)
    (cfg : BeyondMimicConfig F) (turned : Nat → Bool)
    (c : MotionCommand F) :
    (View.signs hE cfg).Same c
      { c with bodyQuatW := turnOver turned c.bodyQuatW } := by
  obtain ⟨k, hk⟩ := RLControllerNode.anchorIndex_nat cfg
  have hturned := bodyQuat_turnOver turned c k
  refine ⟨rfl, rfl, Or.inr ⟨rfl, ?_, ?_⟩⟩
  · rw [hk]
    show (∃ e, c.bodyPos k = .error e ∧ c.bodyPos k = .error e) ∨ _
    cases hp : c.bodyPos k with
    | error e => exact Or.inl ⟨e, rfl, rfl⟩
    | ok p => exact Or.inr ⟨p, p, rfl, hp, rfl⟩
  · rw [hk, hturned]
    cases c.bodyQuat k with
    | error e => exact Or.inl ⟨e, rfl, rfl⟩
    | ok q =>
        refine Or.inr ⟨q, _, rfl, rfl, ?_⟩
        cases turned k with
        | false => exact Or.inl rfl
        | true => exact Or.inr rfl

omit [Eigen F] in
/-- Narrowing an orientation keeps what it is the sign of. -/
theorem narrow_sameRotation [Neg D]
    (hnarrow : ∀ d : D, (Scalar.narrow (-d) : F) = -Scalar.narrow d)
    {q q' : Quat D} (h : q.SameRotation q') :
    (q.narrow : Quat F).SameRotation q'.narrow := by
  rcases h with rfl | rfl
  · exact Or.inl rfl
  · right
    unfold Quat.narrow Quat.neg
    simp only [hnarrow]

namespace RLControllerNode

/-- No sign of a quaternion is ever seen: with the orientations of any
IMU messages turned over, and those of any bodies in any answers of the
model, every run asks the model for the same and publishes the same, and
stops in the same fault or goes on. -/
theorem signs_unseen [Neg D] (hE : Eigen.SignBlind F)
    (hnarrow : ∀ d : D, (Scalar.narrow (-d) : F) = -Scalar.narrow d)
    (cfg : BeyondMimicConfig F) {net net' : Policy F}
    (hsize : net'.obsSize = net.obsSize)
    (hnet : ∀ obs t,
      (∃ e, net.infer obs t = .error e ∧ net'.infer obs t = .error e)
      ∨ ∃ r turned, net.infer obs t = .ok r
        ∧ net'.infer obs t
          = .ok { r with bodyQuatW := turnOver turned r.bodyQuatW })
    (s m : Int) {evs evs' : List (Event D)}
    (hevs : List.Forall₂ SameButSign evs evs') :
    (run net' (start cfg s m) evs').log
        = (run net (start cfg s m) evs).log
      ∧ ((∃ e, (run net (start cfg s m) evs).out = .error e
          ∧ (run net' (start cfg s m) evs').out = .error e)
        ∨ ∃ n n', (run net (start cfg s m) evs).out = .ok n
          ∧ (run net' (start cfg s m) evs').out = .ok n') := by
  have hmodels : (View.signs hE cfg).Models net net' := by
    refine ⟨hsize, ?_⟩
    intro obs t
    rcases hnet obs t with he | ⟨r, turned, hr, hr'⟩
    · exact Or.inl he
    · exact Or.inr ⟨r, _, hr, hr', rfl,
        View.signs_same hE cfg turned r.motion⟩
  have hbased : (View.signs hE cfg).Based net s := Or.inl rfl
  have hview : List.Forall₂ (View.signs hE cfg).Events evs evs' := by
    refine hevs.imp ?_
    intro e e' he
    cases he with
    | jointState msg => exact .jointState msg
    | imu msg h => exact .imu ⟨rfl, narrow_sameRotation hnarrow h⟩
    | timer => exact .timer
  exact View.run_log hmodels hbased m hview

end RLControllerNode

end Unseen

namespace RLControllerNode

/-- One joint and one body, in the machine's numbers. -/
def standing : BeyondMimicConfig single.Value :=
  { BeyondMimicConfig.init with
    jointNames := ["waist"]
    defaultDofPos := [0]
    actionScales := [Scalar.ofRat (1 / 4)]
    bodyNames := ["base"]
    anchorBodyName := "base" }

/-- The answer with the body leaning forward. -/
def leaningResult : InferenceResult single.Value where
  actions := [1]
  jointPos := [1]
  jointVel := [0]
  bodyPosW := [0, 0, 1]
  bodyQuatW := [Scalar.ofRat (12 / 13), 0, Scalar.ofRat (5 / 13), 0]

def leaning : Policy single.Value := Policy.ofFun 14 fun _ _ => leaningResult

/-- The same, with the sign changing at each timestep. -/
def leaningEither : Policy single.Value :=
  Policy.ofFun 14 fun _ t =>
    { leaningResult with
      bodyQuatW := turnOver (fun _ => decide (t % 2 = 1))
        leaningResult.bodyQuatW }

/-- Three ready timer events, with the IMU changing its sign between the
last two. -/
def imuTurned : List (Event ℚ) :=
  twoReady ++ [.imu ⟨⟨-1, 0, 0, 0⟩, ⟨0, 0, 0⟩⟩, .timer]

def imuSteady : List (Event ℚ) :=
  twoReady ++ [.imu ⟨⟨1, 0, 0, 0⟩, ⟨0, 0, 0⟩⟩, .timer]

theorem signs_unseen_leaning :
    (run leaningEither (start standing 0 (-1)) imuTurned).log
      = (run leaning (start standing 0 (-1)) imuSteady).log := by
  have hnarrow : ∀ d : ℚ,
      (Scalar.narrow (-d) : single.Value) = -Scalar.narrow d :=
    Rounding.Value.of_neg
  have hnet : ∀ obs t,
      (∃ e, leaning.infer obs t = .error e
        ∧ leaningEither.infer obs t = .error e)
      ∨ ∃ r turned, leaning.infer obs t = .ok r
        ∧ leaningEither.infer obs t
          = .ok { r with bodyQuatW := turnOver turned r.bodyQuatW } :=
    fun _ _ => Or.inr ⟨leaningResult, _, rfl, rfl⟩
  have hsize : leaningEither.obsSize = leaning.obsSize := rfl
  have hsame : ∀ e : Event ℚ, e ∈ twoReady → SameButSign e e := by
    intro e he
    cases e with
    | jointState msg => exact .jointState msg
    | imu msg => exact .imu msg (Or.inl rfl)
    | timer => exact .timer
  have hlast : SameButSign (.imu ⟨⟨1, 0, 0, 0⟩, ⟨0, 0, 0⟩⟩ : Event ℚ)
      (.imu ⟨⟨-1, 0, 0, 0⟩, ⟨0, 0, 0⟩⟩) :=
    .imu ⟨⟨1, 0, 0, 0⟩, ⟨0, 0, 0⟩⟩ (Or.inr (by decide +kernel))
  exact (signs_unseen (Eigen.rounded_signBlind single) hnarrow standing
    hsize hnet 0 (-1) (List.rel_append (List.forall₂_same.mpr hsame)
      (.cons hlast (.cons .timer .nil)))).1

end RLControllerNode

end RlDeploy
