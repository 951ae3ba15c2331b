/-
The source's `float` and `double` as the machine has them.

Every operator of the source rounds once, to nearest, and nothing is left
out of the formats: what is too great becomes an infinity, there is a
NaN, and zero has a sign (`Format`). So what is shown here of a run is
shown of the machine's run, with any answer of the model and anything in
the messages.
-/
import RlDeploy.Converter.Basic
import RlDeploy.Lib.Machine

namespace RlDeploy

open Lib

/-- `float`: single precision, ties to even. -/
def float : Format where
  rounding := Rounding.binary 23 149
  greatest := (2 ^ 24 - 1) * 2 ^ 104
  isValue := by decide +kernel
  one_le := by decide +kernel

/-- `double`. -/
def double : Format where
  rounding := Rounding.binary 52 1074
  greatest := (2 ^ 53 - 1) * 2 ^ 971
  isValue := by decide +kernel
  one_le := by decide +kernel

variable {A : Format}

/-- The arithmetic of a format, with messages in doubles. -/
instance : Scalar A.Number double.Number where
  lt := Format.Number.lt
  ofRat := Format.Number.ofRat false
  narrow := Format.Number.convert
  widen := Format.Number.convert
  zeroD := 0

/-- A clamp leaves NaN as it is, and of everything else it makes a number
between its bounds. -/
theorem clamp_machine {c : A.Value} (hc : 0 ≤ c.val) (x : A.Number) :
    (x = .nan ∧ clamp x (-.fin c) (.fin c) = .nan)
      ∨ ∃ v : A.Value, clamp x (-.fin c) (.fin c) = .fin v
        ∧ |v.val| ≤ c.val := by
  have hhi : |c.val| ≤ c.val := (abs_of_nonneg hc).le
  have hlo : |c.opposite.val| ≤ c.val := by
    rwa [Format.Value.val_opposite, abs_neg]
  cases x with
  | nan => exact Or.inl ⟨rfl, rfl⟩
  | inf s =>
      right
      cases s with
      | true => exact ⟨c.opposite, rfl, hlo⟩
      | false => exact ⟨c, rfl, hhi⟩
  | fin x =>
      right
      have hlt : ∀ a b : A.Value, Scalar.lt (Format.Number.fin a) (.fin b)
          = true ↔ a.val < b.val := fun _ _ => Format.Number.fin_lt_fin
      unfold clamp
      rw [Format.Number.neg_fin]
      split
      next => exact ⟨c.opposite, rfl, hlo⟩
      next h₁ =>
        split
        next => exact ⟨c, rfl, hhi⟩
        next h₂ =>
          rw [hlt, Format.Value.val_opposite, not_lt] at h₁
          rw [hlt, not_lt] at h₂
          exact ⟨x, rfl, abs_le.mpr ⟨h₁, h₂⟩⟩

/-- Eigen on a machine's numbers for concrete runs: what it is on
rationals, rounded at the end, and NaN where an argument is not finite. -/
@[reducible] def Eigen.machine (A : Format) : Eigen A.Number :=
  let quat (q : Quat A.Number) : Option (Quat ℚ) := do
    return ⟨← q.w.toRat?, ← q.x.toRat?, ← q.y.toRat?, ← q.z.toRat?⟩
  let vec (v : Vec3 A.Number) : Option (Vec3 ℚ) := do
    return ⟨← v.x.toRat?, ← v.y.toRat?, ← v.z.toRat?⟩
  let number (x : Option ℚ) : A.Number :=
    match x with
    | some x => .ofRat false x
    | none => .nan
  let toQuat (q : Option (Quat ℚ)) : Quat A.Number :=
    ⟨number (q.map Quat.w), number (q.map Quat.x),
      number (q.map Quat.y), number (q.map Quat.z)⟩
  let toVec (v : Option (Vec3 ℚ)) : Vec3 A.Number :=
    ⟨number (v.map Vec3.x), number (v.map Vec3.y),
      number (v.map Vec3.z)⟩
  { inverse := fun q => toQuat ((quat q).map Eigen.inverse)
    mul := fun a b => toQuat (do return Eigen.mul (← quat a) (← quat b))
    rotate := fun q v =>
      toVec (do return Eigen.rotate (← quat q) (← vec v))
    toRotationMatrix := fun q =>
      let m := (quat q).map Eigen.toRotationMatrix
      ⟨toVec (m.map Mat3.row0), toVec (m.map Mat3.row1),
        toVec (m.map Mat3.row2)⟩
    eulerAngles := fun m => toVec (do
      return Eigen.eulerAngles
        ⟨← vec m.row0, ← vec m.row1, ← vec m.row2⟩)
    angleAxisZ := fun a => toQuat (a.toRat?.map Eigen.angleAxisZ) }

instance : Eigen float.Number := Eigen.machine float

end RlDeploy
