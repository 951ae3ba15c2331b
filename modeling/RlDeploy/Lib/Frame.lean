/-
Frames in a division ring: an origin and an orientation, where the
orientation `q` turns a position `v` to `q * v * q⁻¹`.

`compose` reads a frame that is given in another one, `relative` is the
way back: the only frame that composes to a given one is the relative
one (`compose_eq_iff`). A common frame in front of both cancels
(`relative_compose`), and so it does when both are taken relative to it
(`relative_relative`).

No orientation has to be of norm one. It has to be invertible.
-/
import Mathlib.Algebra.Field.Basic
import Mathlib.Tactic

namespace RlDeploy.Lib

structure Frame (K : Type) where
  origin : K
  turn : K
  deriving DecidableEq

namespace Frame

variable {K : Type} [DivisionRing K] {b f g x : Frame K}

/-- The frame `g` of `f`, in the frame `f` is in. -/
def compose (f g : Frame K) : Frame K where
  origin := f.origin + f.turn * g.origin * f.turn⁻¹
  turn := f.turn * g.turn

/-- The frame `g`, seen from `f`. -/
def relative (f g : Frame K) : Frame K where
  origin := f.turn⁻¹ * (g.origin - f.origin) * f.turn
  turn := f.turn⁻¹ * g.turn

theorem compose_relative (h : f.turn ≠ 0) :
    f.compose (f.relative g) = g := by
  have horigin : f.turn
        * (f.turn⁻¹ * (g.origin - f.origin) * f.turn) * f.turn⁻¹
      = g.origin - f.origin := by
    rw [← mul_assoc, mul_inv_cancel_left₀ h, mul_inv_cancel_right₀ h]
  have hturn : f.turn * (f.turn⁻¹ * g.turn) = g.turn :=
    mul_inv_cancel_left₀ h _
  unfold compose relative
  rw [horigin, hturn, add_sub_cancel]

theorem relative_compose_self (h : f.turn ≠ 0) :
    f.relative (f.compose x) = x := by
  have horigin : f.turn⁻¹
        * (f.origin + f.turn * x.origin * f.turn⁻¹ - f.origin) * f.turn
      = x.origin := by
    rw [add_sub_cancel_left, mul_assoc f.turn, inv_mul_cancel_left₀ h,
      inv_mul_cancel_right₀ h]
  have hturn : f.turn⁻¹ * (f.turn * x.turn) = x.turn :=
    inv_mul_cancel_left₀ h _
  unfold compose relative
  rw [horigin, hturn]

/-- The relative frame is the one that composes to the other, and no
other one does. -/
theorem compose_eq_iff (h : f.turn ≠ 0) :
    f.compose x = g ↔ x = f.relative g := by
  constructor
  · intro hg
    rw [← hg, relative_compose_self h]
  · intro hx
    rw [hx, compose_relative h]

/-- A common frame in front of both cancels. -/
theorem relative_compose (h : b.turn ≠ 0) :
    (b.compose f).relative (b.compose g) = f.relative g := by
  have horigin : (b.turn * f.turn)⁻¹
        * (b.origin + b.turn * g.origin * b.turn⁻¹
          - (b.origin + b.turn * f.origin * b.turn⁻¹))
        * (b.turn * f.turn)
      = f.turn⁻¹ * (g.origin - f.origin) * f.turn := by
    calc (b.turn * f.turn)⁻¹
          * (b.origin + b.turn * g.origin * b.turn⁻¹
            - (b.origin + b.turn * f.origin * b.turn⁻¹))
          * (b.turn * f.turn)
        = f.turn⁻¹ * (b.turn⁻¹ * (b.turn * ((g.origin - f.origin)
            * (b.turn⁻¹ * (b.turn * f.turn))))) := by
          rw [mul_inv_rev, add_sub_add_left_eq_sub, ← sub_mul, ← mul_sub]
          simp only [mul_assoc]
      _ = f.turn⁻¹ * (g.origin - f.origin) * f.turn := by
          rw [inv_mul_cancel_left₀ h, inv_mul_cancel_left₀ h, mul_assoc]
  have hturn : (b.turn * f.turn)⁻¹ * (b.turn * g.turn)
      = f.turn⁻¹ * g.turn := by
    rw [mul_inv_rev, mul_assoc, inv_mul_cancel_left₀ h]
  unfold compose relative
  rw [horigin, hturn]

/-- Taking both relative to one frame changes nothing between them. -/
theorem relative_relative (h : b.turn ≠ 0) :
    (b.relative f).relative (b.relative g) = f.relative g := by
  calc (b.relative f).relative (b.relative g)
      = (b.compose (b.relative f)).relative
          (b.compose (b.relative g)) := (relative_compose h).symm
    _ = f.relative g := by rw [compose_relative h, compose_relative h]

end Frame

end RlDeploy.Lib
