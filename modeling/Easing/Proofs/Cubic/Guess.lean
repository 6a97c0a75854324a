/-
**Where the linear guess starts the search.**

Read over the reals. A cubic leaves its chord over an interval of the table by the product of the
distances from the two ends and half a second derivative. The derivative is not negative at these
ends, and the second derivative is bounded: over the whole unit interval where the cubic is concave,
and by the derivative itself where it is convex. So from a guess at which the derivative is at least
`1/8` the first step of Newton's method does not leave the interval, and is a promising start.

* `UnitCubic.leading_mem`, `bending_mem`, `bending_mem_of_concave`, `bending_sq_le`: the derivatives
  of a unit cubic.
* `UnitCubic.Chord.offset_eq`: the distance from the chord.
* `UnitCubic.Chord.shift_mem`: the first step stays between the ends.
* `UnitCubic.Chord.promising`: the start is a promising one.
-/
import Mathlib
import Easing.Proofs.Cubic.Newton

set_option linter.unusedSectionVars false

namespace Easing

namespace UnitCubic

/-! ### The derivatives -/

section Derivatives

variable (cubic : UnitCubic ℝ) {t : ℝ}

theorem leading_mem : -2 ≤ cubic.leading ∧ cubic.leading ≤ 4 := by
  obtain ⟨low1, high1⟩ := cubic.x1_real
  obtain ⟨low2, high2⟩ := cubic.x2_real
  rw [leading_real]
  exact ⟨by linarith, by linarith⟩

theorem bending_zero : cubic.bending 0 = 3 * cubic.x2 - 6 * cubic.x1 := by
  rw [bending_real]
  ring

theorem bending_one : cubic.bending 1 = 3 - 6 * cubic.x2 + 3 * cubic.x1 := by
  rw [bending_real, leading_real]
  ring

/-- Half the second derivative is between its values at the ends. -/
theorem bending_eq : cubic.bending t = (1 - t) * cubic.bending 0 + t * cubic.bending 1 := by
  rw [bending_real, bending_real, bending_real]
  ring

theorem bending_mem (low : 0 ≤ t) (high : t ≤ 1) : |cubic.bending t| ≤ 6 := by
  obtain ⟨low1, high1⟩ := cubic.x1_real
  obtain ⟨low2, high2⟩ := cubic.x2_real
  have start : |cubic.bending 0| ≤ 6 := by
    rw [bending_zero, abs_le]
    exact ⟨by linarith, by linarith⟩
  have stop : |cubic.bending 1| ≤ 6 := by
    rw [bending_one, abs_le]
    exact ⟨by linarith, by linarith⟩
  rw [bending_eq, abs_le] at *
  constructor <;> nlinarith

/-- Where the cubic is concave the bound is half as large. -/
theorem bending_mem_of_concave (concave : cubic.leading ≤ 0) (low : 0 ≤ t) (high : t ≤ 1) :
    |cubic.bending t| ≤ 3 := by
  obtain ⟨low1, high1⟩ := cubic.x1_real
  obtain ⟨low2, high2⟩ := cubic.x2_real
  have falls : cubic.bending t ≤ cubic.bending 0 := by
    rw [bending_real, bending_real]
    nlinarith
  have rises : cubic.bending 1 ≤ cubic.bending t := by
    rw [bending_real, bending_real]
    nlinarith
  rw [bending_zero] at falls
  rw [bending_one] at rises
  rw [abs_le]
  exact ⟨by linarith, by linarith⟩

/-- **Where the cubic is convex, it can turn only as fast as it rises.** -/
theorem bending_sq_le (convex : 0 ≤ cubic.leading) (steep : 1 / 12 ≤ cubic.xSlope t) :
    cubic.bending t ^ 2 ≤ 12 * cubic.xSlope t := by
  obtain ⟨low1, high1⟩ := cubic.x1_real
  obtain ⟨low2, high2⟩ := cubic.x2_real
  have turns : cubic.bending t ^ 2 = 3 * cubic.leading * cubic.xSlope t +
      9 * (cubic.x1 ^ 2 + cubic.x2 ^ 2 - cubic.x1 * cubic.x2 - cubic.x1) := by
    rw [bending_real, xSlope_real, leading_real]
    ring
  have rest : 3 * cubic.leading = 12 - 9 * (1 + cubic.x2 - cubic.x1) := by
    rw [leading_real]
    ring
  rw [leading_real] at convex
  have discriminant : cubic.x1 ^ 2 + cubic.x2 ^ 2 - cubic.x1 * cubic.x2 - cubic.x1 ≤
      (1 + cubic.x2 - cubic.x1) * (1 / 12) := by
    -- Beyond a difference of a quarter the left side is negative.
    rcases le_total (cubic.x1 - cubic.x2) (1 / 4) with close | apart
    · nlinarith [mul_nonneg low1 (sub_nonneg.mpr high2), mul_nonneg convex (sub_nonneg.mpr close)]
    · nlinarith [mul_nonneg low1 (sub_nonneg.mpr high1), mul_nonneg low2 (sub_nonneg.mpr apart)]
  have scaled : (1 + cubic.x2 - cubic.x1) * (1 / 12) ≤
      (1 + cubic.x2 - cubic.x1) * cubic.xSlope t :=
    mul_le_mul_of_nonneg_left steep (by linarith)
  rw [turns, rest]
  linarith

end Derivatives

/-! ### The numbers of a start -/

/-- The distances `u` and `w` of a start from the two ends, the derivative `p` there, half the second
derivative there (`q`) and at the mean of the start and the ends (`r`), and the coefficient `a` of
the cube. -/
structure Start (u w p q r a : ℝ) : Prop where
  left : 0 ≤ u
  right : 0 ≤ w
  width : u + w = 1 / 10
  steep : 1 / 8 ≤ p
  turned : r = q + a * (w - u)
  risesLeft : 0 ≤ p - 2 * q * u + 3 * a * u ^ 2
  risesRight : 0 ≤ p + 2 * q * w + 3 * a * w ^ 2
  least : -2 ≤ a
  most : a ≤ 4
  bounded : |r| ≤ 6
  convex : 0 ≤ a → q ^ 2 ≤ 12 * p
  concave : a ≤ 0 → |q| ≤ 3 ∧ |r| ≤ 3

namespace Start

variable {u w p q r a : ℝ}

/-- The same curve, run through from its other end. -/
theorem mirror (start : Start u w p q r a) : Start w u p (-q) (-r) a where
  left := start.right
  right := start.left
  width := by rw [add_comm, start.width]
  steep := start.steep
  turned := by
    rw [start.turned]
    ring
  risesLeft := by linarith [start.risesRight]
  risesRight := by linarith [start.risesLeft]
  least := start.least
  most := start.most
  bounded := by
    rw [abs_neg]
    exact start.bounded
  convex sign := by
    rw [neg_sq]
    exact start.convex sign
  concave sign := by
    rw [abs_neg, abs_neg]
    exact start.concave sign

variable (start : Start u w p q r a)

include start

theorem area_nonneg : 0 ≤ u * w := mul_nonneg start.left start.right

theorem area_le : u * w ≤ 1 / 400 := by
  have width := start.width
  nlinarith [sq_nonneg (u - w)]

/-- The derivative is not negative at the end on the left. -/
theorem two_mul_le : 2 * (u * r) ≤ p + a * (u * (u + 2 * w)) := by
  rw [start.turned]
  linarith [start.risesLeft]

theorem two_mul_le_of_concave (sign : a ≤ 0) : 2 * (u * r) ≤ p := by
  have left := start.left
  have right := start.right
  have within : 0 ≤ u * (u + 2 * w) := by positivity
  exact start.two_mul_le.trans (add_le_of_nonpos_right (mul_nonpos_of_nonpos_of_nonneg sign within))

/-- The first step goes two thirds of the way to the end on the right at most. -/
theorem mul_le_reach : u * r ≤ 33 / 50 * p := by
  have left := start.left
  have right := start.right
  have width := start.width
  have within : 0 ≤ u * (u + 2 * w) := by positivity
  have small : u * (u + 2 * w) ≤ 1 / 100 := by nlinarith [sq_nonneg w]
  have product : a * (u * (u + 2 * w)) ≤ 4 * (1 / 100) :=
    mul_le_mul start.most small within (by norm_num)
  linarith [start.two_mul_le, start.steep]

theorem turn_sq_le : (a * (w - u)) ^ 2 ≤ 4 / 25 := by
  have leading : a ^ 2 ≤ 16 := by nlinarith [start.least, start.most]
  have apart : (w - u) ^ 2 ≤ 1 / 100 := by nlinarith [start.left, start.right, start.width]
  rw [mul_pow]
  exact (mul_le_mul leading apart (sq_nonneg _) (by norm_num)).trans (by norm_num)

/-- The two second derivatives hardly have opposite signs. -/
theorem neg_mul_le : -(u * w * (q * r)) ≤ 1 / 100 * p ^ 2 := by
  have steep := start.steep
  have completed : -(q * r) ≤ 1 / 25 := by
    have turn := start.turn_sq_le
    rw [start.turned]
    nlinarith [sq_nonneg (q + a * (w - u) / 2)]
  have scaled : u * w * -(q * r) ≤ 1 / 400 * (1 / 25) :=
    (mul_le_mul_of_nonneg_left completed start.area_nonneg).trans
      (mul_le_mul_of_nonneg_right start.area_le (by norm_num))
  nlinarith

omit start in
/-- A product of two rises over the two distances, where the lesser one has at most half the
derivative to rise by. -/
theorem mul_mul_le {y z : ℝ} (left : 0 ≤ u) (width : u + w = 1 / 10) (steep : 1 / 8 ≤ p)
    (lesser : 0 ≤ y) (forward : y ≤ z) (most : z ≤ 3) (half : 2 * (u * y) ≤ p) :
    u * w * (y * z) ≤ 19 / 20 * p ^ 2 := by
  have part := mul_nonneg left lesser
  have whole : u * y ≤ u * z := mul_le_mul_of_nonneg_left forward left
  have rest : w * z ≤ 3 / 10 - u * y := by
    rw [eq_sub_of_add_eq' width]
    linarith
  calc u * w * (y * z) = u * y * (w * z) := by ring
    _ ≤ u * y * (3 / 10 - u * y) := mul_le_mul_of_nonneg_left rest part
    _ ≤ 19 / 20 * p ^ 2 := by nlinarith [sq_nonneg (p - 1 / 8), sq_nonneg (u * y - 1 / 16)]

theorem mul_le_of_concave_of_nonneg (sign : a ≤ 0) (first : 0 ≤ q) (second : 0 ≤ r) :
    u * w * (q * r) ≤ 19 / 20 * p ^ 2 := by
  obtain ⟨firstMost, secondMost⟩ := start.concave sign
  have atGuess : 2 * (u * q) ≤ p := by
    have falls : a * u ^ 2 ≤ 0 := mul_nonpos_of_nonpos_of_nonneg sign (sq_nonneg u)
    linarith [start.risesLeft]
  rcases le_total q r with forward | backward
  · exact mul_mul_le start.left start.width start.steep first forward (abs_le.mp secondMost).2
      atGuess
  · rw [mul_comm q]
    exact mul_mul_le start.left start.width start.steep second backward (abs_le.mp firstMost).2
      (start.two_mul_le_of_concave sign)

/-- How far the step may fall short, where the cubic is concave. -/
theorem mul_le_of_concave (sign : a ≤ 0) : u * w * (q * r) ≤ 19 / 20 * p ^ 2 := by
  have bound : 0 ≤ 19 / 20 * p ^ 2 := by positivity
  rcases le_total 0 q with first | first <;> rcases le_total 0 r with second | second
  · exact start.mul_le_of_concave_of_nonneg sign first second
  · exact (mul_nonpos_of_nonneg_of_nonpos start.area_nonneg
      (mul_nonpos_of_nonneg_of_nonpos first second)).trans bound
  · exact (mul_nonpos_of_nonneg_of_nonpos start.area_nonneg
      (mul_nonpos_of_nonpos_of_nonneg first second)).trans bound
  · have mirrored := start.mirror.mul_le_of_concave_of_nonneg sign (neg_nonneg.mpr first)
      (neg_nonneg.mpr second)
    rwa [neg_mul_neg, mul_comm w] at mirrored

/-- How far the step may fall short, where the cubic is convex. -/
theorem mul_le_of_convex (sign : 0 ≤ a) : u * w * (q * r) ≤ 19 / 20 * p ^ 2 := by
  have steep := start.steep
  have product : q * r ≤ 15 * p + 4 / 25 := by
    have turn := start.turn_sq_le
    have square := start.convex sign
    rw [start.turned]
    nlinarith [sq_nonneg (q / 2 - a * (w - u))]
  have scaled : u * w * (q * r) ≤ 1 / 400 * (15 * p + 4 / 25) :=
    (mul_le_mul_of_nonneg_left product start.area_nonneg).trans
      (mul_le_mul_of_nonneg_right start.area_le (by linarith))
  nlinarith

/-- The square of the distance from the chord, where the cubic is convex. -/
theorem sq_le_of_convex (sign : 0 ≤ a) : (u * w * r) ^ 2 ≤ (15 * p + 4 / 5) / 160000 := by
  have steep := start.steep
  have square : r ^ 2 ≤ 15 * p + 4 / 5 := by
    have turn := start.turn_sq_le
    have bending := start.convex sign
    rw [start.turned]
    nlinarith [sq_nonneg (q / 2 - 2 * (a * (w - u)))]
  have area : (u * w) ^ 2 ≤ (1 / 400) ^ 2 := pow_le_pow_left₀ start.area_nonneg start.area_le 2
  rw [mul_pow]
  exact (mul_le_mul area square (sq_nonneg r) (by norm_num)).trans_eq (by ring)

theorem mul_le_of_concave_side (sign : a ≤ 0) : u * w * r ≤ 1 / 20 * p := by
  have half := start.two_mul_le_of_concave sign
  have width : w ≤ 1 / 10 := by linarith [start.left, start.width]
  have positive : 0 ≤ p := by linarith [start.steep]
  nlinarith [start.right]

/-- The distance from the chord is a twentieth of the derivative at most. -/
theorem abs_mul_le : |u * w * r| ≤ 1 / 20 * p := by
  have steep := start.steep
  rcases le_total a 0 with sign | sign
  · have below := start.mirror.mul_le_of_concave_side sign
    rw [abs_le]
    exact ⟨by linarith, start.mul_le_of_concave_side sign⟩
  · refine abs_le_of_sq_le_sq ((start.sq_le_of_convex sign).trans ?_) (by linarith)
    nlinarith

/-- The third derivative counts little. -/
theorem abs_mul_sq_le : |a| * (u * w * r) ^ 2 ≤ 1 / 25 * p ^ 3 := by
  have steep := start.steep
  have cube : p ^ 2 * (1 / 8) ≤ p ^ 2 * p := mul_le_mul_of_nonneg_left steep (sq_nonneg p)
  rcases le_total a 0 with sign | sign
  · have square : (u * w * r) ^ 2 ≤ (1 / 20 * p) ^ 2 := by
      rw [← sq_abs]
      exact pow_le_pow_left₀ (abs_nonneg _) start.abs_mul_le 2
    have leading : |a| ≤ 2 := by
      rw [abs_of_nonpos sign]
      linarith [start.least]
    have product := mul_le_mul leading square (sq_nonneg _) (by norm_num)
    linarith
  · have leading : |a| ≤ 4 := by
      rw [abs_of_nonneg sign]
      exact start.most
    have product := mul_le_mul leading (start.sq_le_of_convex sign) (sq_nonneg _) (by norm_num)
    nlinarith

/-- The distance from the chord. -/
theorem abs_mul_le_const : |u * w * r| ≤ 3 / 200 := by
  rw [abs_mul, abs_of_nonneg start.area_nonneg]
  exact (mul_le_mul start.area_le start.bounded (abs_nonneg r) (by norm_num)).trans (by norm_num)

end Start

/-! ### A guess on the chord -/

/-- `t` divides an interval of the table, which begins at `low`, as `x` divides the rise over it. -/
structure Chord (cubic : UnitCubic ℝ) (x low t : ℝ) : Prop where
  nonneg : 0 ≤ low
  le_one : low + 1 / 10 ≤ 1
  after : low ≤ t
  before : t ≤ low + 1 / 10
  meets : x = cubic.xAt low + 10 * (t - low) * (cubic.xAt (low + 1 / 10) - cubic.xAt low)

namespace Chord

variable {cubic : UnitCubic ℝ} {x low t : ℝ} (chord : cubic.Chord x low t)

include chord

theorem mem : 0 ≤ t ∧ t ≤ 1 :=
  ⟨chord.nonneg.trans chord.after, chord.before.trans chord.le_one⟩

/-- **The distance from the chord**: half the second derivative at the mean of the guess and the
ends, times the distances from these. -/
theorem offset_eq :
    cubic.offset x t =
      -((t - low) * (low + 1 / 10 - t) * cubic.bending ((low + (low + 1 / 10) + t) / 3)) := by
  have meets := chord.meets
  unfold offset
  rw [xAt_real, xAt_real] at meets
  rw [meets, xAt_real, bending_real, leading_real]
  ring

variable (steep : 1 / 8 ≤ cubic.xSlope t)

include steep

theorem start :
    Start (t - low) (low + 1 / 10 - t) (cubic.xSlope t) (cubic.bending t)
      (cubic.bending ((low + (low + 1 / 10) + t) / 3)) cubic.leading where
  left := sub_nonneg.mpr chord.after
  right := sub_nonneg.mpr chord.before
  width := by ring
  steep := steep
  turned := by
    rw [bending_real, bending_real]
    ring
  risesLeft := by
    rw [← xSlope_sub, sub_sub_cancel]
    exact Cubic.slope_nonneg cubic.x1_real cubic.x2_real chord.nonneg
      (chord.after.trans chord.mem.2)
  risesRight := by
    have atEnd := cubic.xSlope_sub t (t - (low + 1 / 10))
    rw [sub_sub_cancel] at atEnd
    have rises : 0 ≤ cubic.xSlope (low + 1 / 10) :=
      Cubic.slope_nonneg cubic.x1_real cubic.x2_real (chord.mem.1.trans chord.before) chord.le_one
    rw [atEnd] at rises
    linarith
  least := cubic.leading_mem.1
  most := cubic.leading_mem.2
  bounded := by
    obtain ⟨nonneg, le_one⟩ := chord.mem
    exact cubic.bending_mem (by linarith [chord.nonneg]) (by linarith [chord.le_one])
  convex sign := cubic.bending_sq_le sign (by linarith)
  concave sign := by
    obtain ⟨nonneg, le_one⟩ := chord.mem
    exact ⟨cubic.bending_mem_of_concave sign nonneg le_one,
      cubic.bending_mem_of_concave sign (by linarith [chord.nonneg]) (by linarith [chord.le_one])⟩

/-- **The first step stays between the ends**, and covers two thirds of the way to one at most. -/
theorem shift_mem :
    -(33 / 50 * (low + 1 / 10 - t)) ≤ cubic.shift x t ∧ cubic.shift x t ≤ 33 / 50 * (t - low) := by
  have numbers := chord.start steep
  have rising : 0 < cubic.xSlope t := by linarith
  have right := mul_le_mul_of_nonneg_left numbers.mul_le_reach numbers.right
  have left := mul_le_mul_of_nonneg_left numbers.mirror.mul_le_reach numbers.left
  unfold shift
  rw [le_div_iff₀ rising, div_le_iff₀ rising, chord.offset_eq]
  exact ⟨by linarith, by linarith⟩

theorem abs_shift_le : |cubic.shift x t| ≤ 1 / 20 := by
  have rising : 0 < cubic.xSlope t := by linarith
  unfold shift
  rw [chord.offset_eq, abs_div, abs_neg, abs_of_pos rising, div_le_iff₀ rising]
  exact (chord.start steep).abs_mul_le

theorem abs_offset_le : |cubic.offset x t| ≤ 3 / 200 := by
  rw [chord.offset_eq, abs_neg]
  exact (chord.start steep).abs_mul_le_const

/-- **A guess where the derivative is at least `1/8` is a promising start.** -/
theorem promising : cubic.Promising x t := by
  have numbers := chord.start steep
  have rising : 0 < cubic.xSlope t := by linarith
  have area : cubic.bending t * cubic.offset x t = -((t - low) * (low + 1 / 10 - t) *
      (cubic.bending t * cubic.bending ((low + (low + 1 / 10) + t) / 3))) := by
    rw [chord.offset_eq]
    ring
  refine ⟨rising, ?_, ?_, ?_⟩
  · have short : (t - low) * (low + 1 / 10 - t) *
        (cubic.bending t * cubic.bending ((low + (low + 1 / 10) + t) / 3)) ≤
          19 / 20 * cubic.xSlope t ^ 2 :=
      (le_total cubic.leading 0).elim numbers.mul_le_of_concave numbers.mul_le_of_convex
    unfold bend
    rw [le_div_iff₀ (pow_pos rising 2), area]
    linarith
  · unfold bend
    rw [div_le_iff₀ (pow_pos rising 2), area]
    exact numbers.neg_mul_le
  · unfold twist
    rw [abs_div, abs_mul, abs_of_pos (pow_pos rising 3), abs_sq, div_le_iff₀ (pow_pos rising 3),
      chord.offset_eq, neg_sq]
    exact numbers.abs_mul_sq_le

end Chord

end UnitCubic

end Easing
