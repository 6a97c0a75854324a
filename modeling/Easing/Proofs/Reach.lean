/-
**Where a handle ends up.**

With exact arithmetic, an anchor inside the domain and a target determine the handle: it is the way
to the target, cut in proportion at the bound that the target exceeds. That bound is always crossed
on the way, so the handle that was there before never matters.

* `reach`: the way from an anchor to a target, as far as the domain allows.
* `boundCrossing_real`: the crossing exists, and where it lies.
* `clampHandle_real`: a clamped handle is the reach of its anchor.
* `isGreatest_reachShare`: no greater share of the way lies in the domain.
-/
import Mathlib
import Easing.Handle
import Easing.Proofs.Scalar.Exact

namespace Easing

variable {domain : ℝ} {anchor target : Point ℝ}

/-- The bound that an x beyond the domain exceeds. -/
noncomputable def exceededBound (domain x : ℝ) : ℝ := if domain < x then domain else 0

/-- The share of the way from an anchor to a target that lies in the domain. -/
noncomputable def reachShare (domain : ℝ) (anchor target : Point ℝ) : ℝ :=
  if 0 ≤ target.x ∧ target.x ≤ domain then 1
  else (exceededBound domain target.x - anchor.x) / (target.x - anchor.x)

/-- The way from an anchor to a target, as far as it lies in the domain. -/
noncomputable def reach (domain : ℝ) (anchor target : Point ℝ) : Vec ℝ :=
  (target - anchor).scale (reachShare domain anchor target)

/-- A target in the domain is reached. -/
theorem reach_of_inside (within : 0 ≤ target.x ∧ target.x ≤ domain) :
    reach domain anchor target = target - anchor := by
  unfold reach reachShare
  rw [if_pos within]
  show (⟨_ * 1, _ * 1⟩ : Vec ℝ) = _
  rw [mul_one, mul_one]

/-- A target beyond the domain is above it or below it. -/
theorem exceededBound_cases (outside : ¬(0 ≤ target.x ∧ target.x ≤ domain)) :
    (domain < target.x ∧ exceededBound domain target.x = domain) ∨
      (target.x < 0 ∧ exceededBound domain target.x = 0) := by
  unfold exceededBound
  by_cases above : domain < target.x
  · exact .inl ⟨above, if_pos above⟩
  · rw [not_and_or, not_le, not_le] at outside
    exact .inr ⟨outside.resolve_right above, if_neg above⟩

/-- The way to a target beyond the domain is not upright. -/
theorem slanted_of_outside (inside : 0 ≤ anchor.x ∧ anchor.x ≤ domain)
    (outside : ¬(0 ≤ target.x ∧ target.x ≤ domain)) : target.x - anchor.x ≠ 0 := by
  intro same
  rw [sub_eq_zero] at same
  rw [same] at outside
  exact outside inside

/-- The area that decides whether a line meets an upright one. -/
theorem cross_upright (anchor target : Point ℝ) (limit : ℝ) :
    (target - anchor).cross ((⟨limit, 1⟩ : Point ℝ) - (⟨limit, -1⟩ : Point ℝ)) =
      (target.x - anchor.x) * 2 := by
  show (target.x - anchor.x) * (1 - -1) - (target.y - anchor.y) * (limit - limit) = _
  ring

/-- The line through two points above one another crosses no upright line. -/
theorem crossing_upright (limit : ℝ) (upright : target.x - anchor.x = 0) :
    (⟨anchor, target⟩ : Line ℝ).crossing ⟨⟨limit, -1⟩, ⟨limit, 1⟩⟩ = none := by
  unfold Line.crossing
  dsimp only
  rw [cross_upright, upright, zero_mul, Scalar.zero_real]
  exact if_pos (beq_iff_eq.mpr rfl)

/-- The line through two points that are not above one another crosses every upright line. -/
theorem crossing_real (limit : ℝ) (slanted : target.x - anchor.x ≠ 0) :
    (⟨anchor, target⟩ : Line ℝ).crossing ⟨⟨limit, -1⟩, ⟨limit, 1⟩⟩ =
      some ⟨limit, anchor.y +
        (target.y - anchor.y) * ((limit - anchor.x) / (target.x - anchor.x))⟩ := by
  have offset : (target - anchor).cross (anchor - (⟨limit, -1⟩ : Point ℝ)) =
      (target.x - anchor.x) * (anchor.y + 1) - (target.y - anchor.y) * (anchor.x - limit) := by
    show (target.x - anchor.x) * (anchor.y - -1) - _ = _
    rw [sub_neg_eq_add]
    rfl
  have notParallel : ¬((target.x - anchor.x) * 2 == @OfNat.ofNat ℝ 0 Scalar.instOfNat) = true := by
    rw [Scalar.zero_real, beq_iff_eq]
    exact mul_ne_zero slanted two_ne_zero
  unfold Line.crossing
  dsimp only
  rw [cross_upright, offset, if_neg notParallel, Option.some.injEq]
  show (⟨limit + (limit - limit) * _, -1 + (1 - -1) * _⟩ : Point ℝ) = _
  congr 1
  · ring
  · field_simp
    ring

/-- A reached point is on the bound that was exceeded. -/
theorem reach_x (inside : 0 ≤ anchor.x ∧ anchor.x ≤ domain)
    (outside : ¬(0 ≤ target.x ∧ target.x ≤ domain)) :
    anchor.x + (reach domain anchor target).x = exceededBound domain target.x := by
  have slanted := slanted_of_outside inside outside
  unfold reach reachShare
  rw [if_neg outside]
  show anchor.x + (target.x - anchor.x) * _ = _
  field_simp
  ring

theorem reach_y (outside : ¬(0 ≤ target.x ∧ target.x ≤ domain)) :
    (reach domain anchor target).y = (target.y - anchor.y) *
      ((exceededBound domain target.x - anchor.x) / (target.x - anchor.x)) := by
  unfold reach reachShare
  rw [if_neg outside]
  rfl

/-- **A target beyond the domain is reached through the bound**, whatever the anchor. -/
theorem boundCrossing_real (inside : 0 ≤ anchor.x ∧ anchor.x ≤ domain)
    (outside : ¬(0 ≤ target.x ∧ target.x ≤ domain)) :
    boundCrossing anchor target domain =
      some (anchor + reach domain anchor target) := by
  have slanted := slanted_of_outside inside outside
  have crossing := crossing_real (exceededBound domain target.x) slanted
  have reached : anchor + reach domain anchor target =
      (⟨exceededBound domain target.x, anchor.y + (target.y - anchor.y) *
        ((exceededBound domain target.x - anchor.x) / (target.x - anchor.x))⟩ : Point ℝ) := by
    rw [← reach_y outside, ← reach_x inside outside]
    rfl
  rw [reached]
  unfold boundCrossing
  simp only [Scalar.zero_real, Scalar.one_real]
  rw [show (if domain < target.x then domain else 0) = exceededBound domain target.x from rfl,
    crossing]
  rcases exceededBound_cases outside with ⟨above, limit⟩ | ⟨below, limit⟩
  · rw [if_pos (inside.2.trans above.le), limit]
    simp [inside.2, above.le]
  · rw [if_neg (not_le.mpr (below.trans_le inside.1)), limit]
    simp [inside.1, below.le]

/-- **The handle is the reach of its anchor**, whatever it was before. -/
theorem clampHandle_real (knot : Knot ℝ) (side : Side)
    (inside : 0 ≤ knot.point.x ∧ knot.point.x ≤ domain) :
    clampHandle knot side target domain = .ok (reach domain knot.point target) := by
  have width : 0 ≤ domain := inside.1.trans inside.2
  unfold clampHandle
  rw [Scalar.zero_real]
  by_cases within : 0 ≤ target.x ∧ target.x ≤ domain
  · rw [if_pos within, reach_of_inside within]
  · rw [if_neg within, boundCrossing_real inside within]
    dsimp only
    have cut : clampToDomain domain (knot.point + reach domain knot.point target).x =
        .ok (knot.point.x + (reach domain knot.point target).x) := by
      show clampToDomain domain (knot.point.x + (reach domain knot.point target).x) = _
      unfold clampToDomain Scalar.clamp
      rw [Scalar.zero_real, if_pos width, reach_x inside within]
      rcases exceededBound_cases within with ⟨-, limit⟩ | ⟨-, limit⟩
      · rw [limit, if_neg (not_lt.mpr width), if_neg (lt_irrefl domain)]
      · rw [limit, if_neg (lt_irrefl 0), if_neg (not_lt.mpr width)]
    rw [cut]
    show Except.ok (⟨knot.point.x + _ - knot.point.x, knot.point.y + _ - knot.point.y⟩ : Vec ℝ) = _
    rw [add_sub_cancel_left, add_sub_cancel_left]

/-! ### The greatest share -/

/-- The shares of a way from `x` that end in the domain. -/
def sharesWithin (domain x way : ℝ) : Set ℝ :=
  {share | 0 ≤ share ∧ share ≤ 1 ∧ 0 ≤ x + share * way ∧ x + share * way ≤ domain}

/-- A way up is cut where it meets the end of the domain. -/
theorem isGreatest_share_above {x way : ℝ} (inside : 0 ≤ x ∧ x ≤ domain) (above : domain < x + way) :
    IsGreatest (sharesWithin domain x way) ((domain - x) / way) := by
  have up : 0 < way := by linarith [inside.2]
  have meets : x + (domain - x) / way * way = domain := by
    rw [div_mul_cancel₀ _ up.ne']
    ring
  refine ⟨⟨div_nonneg (sub_nonneg.mpr inside.2) up.le, ?_, ?_, meets.le⟩, ?_⟩
  · rw [div_le_one up]
    linarith
  · rw [meets]
    exact inside.1.trans inside.2
  · rintro share ⟨-, -, -, below⟩
    rw [le_div_iff₀ up]
    linarith

/-- A way down is cut where it meets zero. -/
theorem isGreatest_share_below {x way : ℝ} (inside : 0 ≤ x ∧ x ≤ domain) (below : x + way < 0) :
    IsGreatest (sharesWithin domain x way) ((0 - x) / way) := by
  have down : way < 0 := by linarith [inside.1]
  have meets : x + (0 - x) / way * way = 0 := by
    rw [div_mul_cancel₀ _ down.ne]
    ring
  refine ⟨⟨div_nonneg_of_nonpos (by linarith [inside.1]) down.le, ?_, meets.ge, ?_⟩, ?_⟩
  · rw [div_le_one_of_neg down]
    linarith
  · rw [meets]
    exact inside.1.trans inside.2
  · rintro share ⟨-, -, above, -⟩
    rw [le_div_iff_of_neg down]
    linarith

/-- **The share of the way that is taken is the greatest one** that ends in the domain. -/
theorem isGreatest_reachShare (inside : 0 ≤ anchor.x ∧ anchor.x ≤ domain) (target : Point ℝ) :
    IsGreatest (sharesWithin domain anchor.x (target.x - anchor.x))
      (reachShare domain anchor target) := by
  have arrives : anchor.x + (target.x - anchor.x) = target.x := add_sub_cancel _ _
  unfold reachShare
  split
  case isTrue within =>
    refine ⟨⟨zero_le_one, le_rfl, ?_⟩, fun share member => member.2.1⟩
    rwa [one_mul, arrives]
  case isFalse outside =>
    rcases exceededBound_cases outside with ⟨above, limit⟩ | ⟨below, limit⟩
    · rw [limit]
      exact isGreatest_share_above inside (by rwa [arrives])
    · rw [limit]
      exact isGreatest_share_below inside (by rwa [arrives])

/-- What is reached lies in the domain. -/
theorem reach_mem (inside : 0 ≤ anchor.x ∧ anchor.x ≤ domain) (target : Point ℝ) :
    0 ≤ anchor.x + (reach domain anchor target).x ∧
      anchor.x + (reach domain anchor target).x ≤ domain := by
  have share := (isGreatest_reachShare inside target).1.2.2
  rwa [mul_comm] at share

end Easing
