/-
What a corrupted inference leaves behind.

With `action_beta = 1` the smoothing term `(1 - beta) * last` looks as
if it vanished, so that no action could outlive its tick. It vanishes on
finite values only: zero times NaN is NaN, and so is zero times an
infinity. What `processAction` remembers is the smoothed action before
the clip, so a non-finite component of a raw action is stored as it is,
turns into NaN in the next call and stays NaN in all calls after.

The results are stated over the rationals with the IEEE special values.
`clean hist i` says that component `i` was finite in all actions of a
history; `memory_fades` is the invariant over histories, that the stored
component times zero is zero exactly when the history is clean there.
That alone decides whether a later component comes back finite.
-/
import RlDeploy.Lib.ExtRat
import RlDeploy.Converter.Proofs.Run

namespace RlDeploy

open Lib

/-- Floats as rationals with special values, without rounding. -/
instance : Scalar ExtRat ExtRat where
  lt := ExtRat.lt
  ofRat := .fin
  narrow x := x
  widen x := x
  zeroD := 0

namespace DataConverter

-- =========================================================== histories

section Feed

variable {F D : Type} [Scalar F D]

/-- A history of `processAction` calls, their results dropped. -/
def feed (dc : DataConverter F) (hist : List (List F)) :
    Except Fault (DataConverter F) :=
  hist.foldlM (fun dc raw => do
    let (dc', _) ← dc.processAction raw
    return dc') dc

/-- What `processAction raw` returns after the history `hist` since
`configure`. -/
def returned (cfg : BeyondMimicConfig F) (hist : List (List F))
    (raw : List F) : Except Fault (List F) := do
  let dc ← (init.configure cfg).feed hist
  let (_, action) ← dc.processAction raw
  return action

theorem feed_snoc (dc : DataConverter F) (hist : List (List F))
    (raw : List F) :
    dc.feed (hist ++ [raw]) = (do
      let dc₁ ← dc.feed hist
      let (dc₂, _) ← dc₁.processAction raw
      return dc₂) := by
  unfold feed
  rw [List.foldlM_append]
  apply bind_congr
  intro dc₁
  rw [List.foldlM_cons]
  cases dc₁.processAction raw <;> rfl

/-- Histories of well-sized actions keep the run invariant. -/
theorem feed_sound {cfg : BeyondMimicConfig F}
    (hscales : cfg.actionScales.length = cfg.numDof)
    {hist : List (List F)} (hhist : ∀ raw ∈ hist, raw.length = cfg.numDof) :
    ∃ dc, (init.configure cfg).feed hist = .ok dc
      ∧ Sound (init.configure cfg) dc := by
  have hn := configure_numDof init cfg
  have hs : (init.configure cfg).numDof
      ≤ (init.configure cfg).cfg.actionScales.length := by
    obtain ⟨k, hk, -⟩ := cfg.setAnchorBodyIndex_eq
    rw [hn, configure_cfg, hk]
    exact hscales.ge
  induction hist using List.reverseRecOn with
  | nil => exact ⟨_, rfl, configure_sound cfg⟩
  | append_singleton hist raw ih =>
      obtain ⟨dc, hdc, hsound⟩ :=
        ih fun r hr => hhist r (List.mem_append_left _ hr)
      have hraw := hhist raw (by simp)
      obtain ⟨hp, hsound', -⟩ :=
        hsound.processAction hs (hraw.trans hn.symm)
      rw [feed_snoc, hdc]
      simp only [ok_bind]
      rw [hp]
      exact ⟨_, rfl, hsound'⟩

end Feed

-- ====================================================== special values

/-- Component `i` was finite in every action of the history. -/
def clean (hist : List (List ExtRat)) (i : Nat) : Bool :=
  hist.all fun raw => (raw[i]?.getD 0).isFinite

variable {cfg : BeyondMimicConfig ExtRat} {hist : List (List ExtRat)}

/-- The smoothed component, without smoothing: the stored one still
enters with the factor zero. -/
theorem smoothed_component {dc : DataConverter ExtRat}
    (hbeta : dc.cfg.actionBeta = 1) {raw : List ExtRat} {i : Nat}
    {last x : ExtRat} (hi : i < dc.numDof)
    (hlast : dc.lastAction[i]? = some last) (hraw : raw[i]? = some x) :
    (dc.smoothed raw)[i]? = some (0 * last + x) := by
  unfold smoothed
  rw [hbeta, List.getElem?_zipWith, List.getElem?_take_of_lt hi,
    List.getElem?_take_of_lt hi, hlast, hraw]
  simp

theorem clean_snoc (hist : List (List ExtRat)) {raw : List ExtRat}
    {i : Nat} {x : ExtRat} (hx : raw[i]? = some x) :
    clean (hist ++ [raw]) i = (clean hist i && x.isFinite) := by
  unfold clean
  rw [List.all_append, List.all_cons, List.all_nil, Bool.and_true, hx]
  rfl

/-- The configuration of a converter in the history is `cfg`'s. -/
theorem setup_config {dc : DataConverter ExtRat}
    (h : dc.SameSetup (init.configure cfg)) :
    dc.cfg.actionBeta = cfg.actionBeta
      ∧ dc.cfg.clipActions = cfg.clipActions
      ∧ dc.cfg.actionScales = cfg.actionScales
      ∧ dc.numDof = cfg.numDof := by
  obtain ⟨k, hk⟩ := h.config
  rw [h.joints, hk]
  exact ⟨rfl, rfl, rfl, rfl⟩

/-- The invariant over histories: what is stored vanishes under the
factor zero exactly when the history is clean. -/
theorem memory_fades (hbeta : cfg.actionBeta = 1)
    (hscales : cfg.actionScales.length = cfg.numDof) {i : Nat}
    (hi : i < cfg.numDof)
    (hhist : ∀ raw ∈ hist, raw.length = cfg.numDof) :
    ∃ dc last, (init.configure cfg).feed hist = .ok dc
      ∧ Sound (init.configure cfg) dc
      ∧ dc.lastAction[i]? = some last
      ∧ 0 * last = if clean hist i then 0 else .nan := by
  obtain ⟨dc, hdc, hsound⟩ := feed_sound hscales hhist
  refine ⟨dc, ?_⟩
  induction hist using List.reverseRecOn generalizing dc with
  | nil =>
      cases hdc
      refine ⟨0, rfl, hsound, ?_, ?_⟩
      · rw [configure_lastAction, List.getElem?_replicate, if_pos hi]
      · rw [ExtRat.zero_mul]
        rfl
  | append_singleton hist raw ih =>
      have hhist' : ∀ r ∈ hist, r.length = cfg.numDof :=
        fun r hr => hhist r (List.mem_append_left _ hr)
      obtain ⟨dc₁, hdc₁, hsound₁⟩ := feed_sound hscales hhist'
      obtain ⟨last, -, -, hlast, hfade⟩ := ih hhist' dc₁ hdc₁ hsound₁
      obtain ⟨hb, -, -, hn⟩ := setup_config hsound₁.setup
      have hraw := hhist raw (by simp)
      obtain ⟨x, hx⟩ : ∃ x, raw[i]? = some x :=
        ⟨_, List.getElem?_eq_getElem (by omega)⟩
      -- the call that stored what `dc` remembers
      have hstored := hdc
      rw [feed_snoc, hdc₁] at hstored
      simp only [ok_bind, bind_eq_ok_iff] at hstored
      obtain ⟨⟨dc₂, action⟩, hp, hret⟩ := hstored
      cases hret
      obtain ⟨hdc₂, -, -⟩ := processAction_ok hp
      have hentry : dc₂.lastAction[i]? = some (0 * last + x) := by
        rw [hdc₂]
        exact smoothed_component (hb.trans hbeta) (by omega) hlast hx
      refine ⟨0 * last + x, hdc, hsound, hentry, ?_⟩
      rw [hfade, clean_snoc hist hx]
      cases clean hist i with
      | true =>
          rw [if_pos rfl, ExtRat.zero_add, ExtRat.zero_mul, Bool.true_and]
      | false =>
          simp only [Bool.false_eq_true, if_false, Bool.false_and,
            ExtRat.nan_add]
          rfl

-- ================================================ the returned component

/-- Clipping keeps finite values finite, and NaN. -/
theorem clamp_fin {clip : ExtRat} (hclip : ExtRat.le 0 clip = true)
    (q : ℚ) : ∃ p, clamp (.fin q) (-clip) clip = .fin p := by
  rcases ExtRat.zero_le_iff.mp hclip with rfl | ⟨c, -, rfl⟩
  · exact ⟨q, rfl⟩
  · unfold clamp
    split
    · exact ⟨-c, rfl⟩
    · split
      · exact ⟨c, rfl⟩
      · exact ⟨q, rfl⟩

theorem clamp_nan (lo hi : ExtRat) : clamp .nan lo hi = .nan := by
  unfold clamp
  have h₁ : Scalar.lt ExtRat.nan lo = false := ExtRat.nan_lt lo
  have h₂ : Scalar.lt hi ExtRat.nan = false := ExtRat.lt_nan hi
  rw [h₁, h₂]
  rfl

/-- A finite entry, clipped and scaled by a finite one, is finite. -/
theorem component_finite (hclip : ExtRat.le 0 cfg.clipActions = true)
    (hfin : ∀ k ∈ cfg.actionScales, k.isFinite = true)
    {raw : List ExtRat} (hrawFin : ∀ x ∈ raw, x.isFinite = true)
    (i : Nat) :
    ∃ q : ℚ, ∀ x k, raw[i]? = some x → cfg.actionScales[i]? = some k →
      clamp x (-cfg.clipActions) cfg.clipActions * k = .fin q := by
  by_cases hx : ∃ x k, raw[i]? = some x ∧ cfg.actionScales[i]? = some k
  case neg =>
    refine ⟨0, fun x k hx' hk' => ?_⟩
    exact absurd ⟨x, k, hx', hk'⟩ hx
  obtain ⟨x, k, hx, hk⟩ := hx
  obtain ⟨a, rfl⟩ := ExtRat.isFinite_iff.mp
    (hrawFin x (List.mem_of_getElem? hx))
  obtain ⟨b, rfl⟩ := ExtRat.isFinite_iff.mp
    (hfin k (List.mem_of_getElem? hk))
  obtain ⟨p, hp⟩ := clamp_fin hclip a
  refine ⟨p * b, fun x' k' hx' hk' => ?_⟩
  rw [hx] at hx'
  rw [hk] at hk'
  cases hx'
  cases hk'
  rw [hp, ExtRat.fin_mul_fin]

/-- Without smoothing, a finite action comes back clipped and scaled,
the same after every history that is clean at the component, and comes
back as NaN after every other. -/
theorem component_after (hbeta : cfg.actionBeta = 1)
    (hclip : ExtRat.le 0 cfg.clipActions = true)
    (hscales : cfg.actionScales.length = cfg.numDof)
    (hfin : ∀ k ∈ cfg.actionScales, k.isFinite = true)
    {raw : List ExtRat} (hraw : raw.length = cfg.numDof)
    (hrawFin : ∀ x ∈ raw, x.isFinite = true) :
    ∃ value : Nat → ℚ,
      (∀ i x k, raw[i]? = some x → cfg.actionScales[i]? = some k →
        clamp x (-cfg.clipActions) cfg.clipActions * k
          = .fin (value i))
      ∧ ∀ hist : List (List ExtRat),
        (∀ h ∈ hist, h.length = cfg.numDof) →
        ∃ action, returned cfg hist raw = .ok action
          ∧ action.length = cfg.numDof
          ∧ ∀ i, i < cfg.numDof → action[i]?
            = some (if clean hist i then .fin (value i) else .nan) := by
  have hn := configure_numDof init cfg
  choose value hvalue using
    fun i => component_finite hclip hfin hrawFin i
  refine ⟨value, hvalue, ?_⟩
  intro hist hhist
  obtain ⟨dc, hdc, hsound⟩ := feed_sound hscales hhist
  obtain ⟨hb, hc, hsc, hnum⟩ := setup_config hsound.setup
  have hle : (init.configure cfg).numDof
      ≤ (init.configure cfg).cfg.actionScales.length := by
    obtain ⟨-, -, hsc₀, hn₀⟩ := setup_config (SameSetup.refl
      (init.configure cfg))
    rw [hn₀, hsc₀, hscales]
  obtain ⟨hp, -, hlen⟩ := hsound.processAction hle (hraw.trans hn.symm)
  refine ⟨dc.scaled raw, ?_, hlen.trans hn, ?_⟩
  · unfold returned
    rw [hdc]
    simp only [ok_bind]
    rw [hp]
    rfl
  · intro i hi
    obtain ⟨dc', last, hdc', -, hlast, hfade⟩ :=
      memory_fades hbeta hscales hi hhist
    rw [hdc] at hdc'
    cases hdc'
    obtain ⟨x, hx⟩ : ∃ x, raw[i]? = some x :=
      ⟨_, List.getElem?_eq_getElem (by omega)⟩
    obtain ⟨k, hk⟩ : ∃ k, cfg.actionScales[i]? = some k :=
      ⟨_, List.getElem?_eq_getElem (by omega)⟩
    have hsmooth := smoothed_component (hb.trans hbeta) (by omega) hlast
      hx
    unfold scaled
    rw [List.getElem?_zipWith, hsmooth, hsc, hnum,
      List.getElem?_take_of_lt hi, hk, hc, hfade]
    cases clean hist i with
    | true =>
        simp only [if_true, ExtRat.zero_add]
        exact congrArg some (hvalue i x k hx hk)
    | false =>
        simp only [Bool.false_eq_true, if_false, ExtRat.nan_add,
          clamp_nan, ExtRat.nan_mul]

-- ============================================================ instances

/-- One joint, the shipped `action_beta` and `clip_actions`. -/
def oneJoint : BeyondMimicConfig ExtRat :=
  { BeyondMimicConfig.init with
    jointNames := ["hip"]
    defaultDofPos := [0]
    actionScales := [.fin (1 / 4)]
    robotJointNames := ["hip"] }

theorem component_after_oneJoint :
    ∃ value : Nat → ℚ,
      (∀ i x k, [ExtRat.fin 2][i]? = some x →
        oneJoint.actionScales[i]? = some k →
        clamp x (-oneJoint.clipActions) oneJoint.clipActions * k
          = .fin (value i))
      ∧ ∀ hist : List (List ExtRat),
        (∀ h ∈ hist, h.length = oneJoint.numDof) →
        ∃ action, returned oneJoint hist [.fin 2] = .ok action
          ∧ action.length = oneJoint.numDof
          ∧ ∀ i, i < oneJoint.numDof → action[i]?
            = some (if clean hist i then .fin (value i) else .nan) :=
  component_after rfl (by decide +kernel) rfl (by decide) rfl (by decide)

/-- One NaN in an earlier action: the next finite action comes back as
NaN, where it comes back finite without it. -/
theorem nan_outlives_tick :
    returned oneJoint [] [.fin 2] = .ok [.fin (1 / 2)]
      ∧ returned oneJoint [[.nan]] [.fin 2] = .ok [.nan] := by
  decide +kernel

end DataConverter

end RlDeploy
