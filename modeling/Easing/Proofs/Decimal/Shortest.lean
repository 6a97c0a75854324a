/-
**The digits that are written read back.**

The search for the shortest digits ends with a decimal that is read as the double: one with
seventeen digits exists, since their distance is less than the interval is wide.

* `Magnitude.leading_le`: the exponent of the leading digit is not too great.
* `Magnitude.exists_nearestAt`: a step that fits into the interval has a hit.
* `Magnitude.Legal.rounded_shortest`: the digits found are rounded to the magnitude.
-/
import Easing.Proofs.Decimal.Interval

namespace Easing.Decimal

open Easing.Binary64

/-! ### Digits -/

/-- A number has as many digits as it takes to write it. -/
theorem lt_pow_digitCount (n : ℕ) : n < 10 ^ digitCount n := by
  induction n using digitCount.induct with
  | case1 => positivity
  | case2 n nonzero ih =>
    rw [digitCount, dif_neg nonzero, pow_succ]
    omega

theorem digitCount_pos {n : ℕ} (positive : 0 < n) : 0 < digitCount n := by
  rw [digitCount, dif_neg positive.ne']
  exact Nat.succ_pos _

/-- The leading digit is not zero. -/
theorem pow_digitCount_le {n : ℕ} (positive : 0 < n) : 10 ^ (digitCount n - 1) ≤ n := by
  induction n using digitCount.induct with
  | case1 => exact absurd positive (Nat.lt_irrefl 0)
  | case2 n nonzero ih =>
    rw [digitCount, dif_neg nonzero, Nat.add_sub_cancel]
    rcases Nat.eq_zero_or_pos (n / 10) with small | more
    · rw [small, digitCount, dif_pos rfl, pow_zero]
      exact positive
    · have step : 10 ^ digitCount (n / 10) = 10 ^ (digitCount (n / 10) - 1) * 10 := by
        rw [← pow_succ, Nat.sub_add_cancel (digitCount_pos more)]
      have := ih more
      omega

/-- Dropping zeros at the end keeps the value. -/
theorem Scaled.value_trim (d : Scaled) : d.trim.value = d.value := by
  induction d using Scaled.trim.induct with
  | case1 d zeros ih =>
    rw [Scaled.trim, dif_pos zeros, ih]
    have whole : (d.digits : ℝ) = 10 * ((d.digits / 10 : ℕ) : ℝ) := by
      have : d.digits = 10 * (d.digits / 10) := by omega
      exact_mod_cast this
    unfold Scaled.value
    rw [whole, zpow_add_one₀ (by norm_num)]
    ring
  | case2 d done => rw [Scaled.trim, dif_neg done]

namespace Magnitude

variable {m : Magnitude} {tie : Tie} {place : ℤ}

/-! ### The value on the common scale -/

theorem scaleQuarters_value (m : Magnitude) (place : ℤ) :
    (m.scaleQuarters place (4 * m.units) : ℝ) = m.value * m.scale place := by
  rw [scaleQuarters_eq, quarter_eq, value]
  push_cast
  ring

/-- The leading digit is not beyond the value. -/
theorem leading_le (positive : 0 < m.units) : (10 : ℝ) ^ m.leading ≤ m.value := by
  have scale := m.scale_pos 0
  have step : (m.scaleStep 0 : ℝ) = m.scale 0 := by
    rw [scaleStep_eq, zpow_zero, one_mul]
  have quarters := m.scaleQuarters_value 0
  have above : 0 < m.scaleQuarters 0 (4 * m.units) := by
    have : (0 : ℝ) < m.scaleQuarters 0 (4 * m.units) := by
      rw [quarters]
      exact mul_pos (value_pos positive) scale
    exact_mod_cast this
  have unit := m.scaleStep_pos 0
  unfold leading
  dsimp only
  generalize m.scaleQuarters 0 (4 * m.units) = value at quarters above ⊢
  generalize m.scaleStep 0 = one at step unit ⊢
  have ratio : m.value = value / one := by
    rw [quarters, step, mul_div_cancel_right₀ _ scale.ne']
  have unit' : (0 : ℝ) < one := by exact_mod_cast unit
  rw [ratio, le_div_iff₀ unit']
  split_ifs with great
  · have some : 0 < value / one := Nat.div_pos great unit
    have count := digitCount_pos some
    have digits := Nat.mul_le_of_le_div _ _ _ (pow_digitCount_le some)
    rw [show (digitCount (value / one) : ℤ) - 1 = ((digitCount (value / one) - 1 : ℕ) : ℤ) by omega,
      zpow_natCast]
    exact_mod_cast digits
  · have digits : one ≤ value * 10 ^ digitCount ((one - 1) / value) := by
      have less := Nat.lt_mul_of_div_lt (lt_pow_digitCount ((one - 1) / value)) above
      rw [mul_comm] at less
      omega
    rw [zpow_neg, zpow_natCast, inv_mul_le_iff₀ (by positivity), mul_comm]
    exact_mod_cast digits

/-! ### Hits -/

/-- What is found reads back. -/
theorem readsBack_nearestAt {digits : ℕ} (found : m.nearestAt tie place = some digits) :
    m.readsBack place digits = true := by
  unfold nearestAt at found
  dsimp only at found
  split at found
  case h_1 => cases found
  case h_2 below _ =>
    rw [← Option.some.inj found]
    exact below
  case h_3 above =>
    rw [← Option.some.inj found]
    exact above
  case h_4 below above =>
    split at found
    · rwa [← Option.some.inj found]
    · split at found
      · rwa [← Option.some.inj found]
      · cases tie with
        | up => rwa [← Option.some.inj found]
        | even =>
          rw [← Option.some.inj found]
          split
          · exact below
          · exact above

/-- A step that is shorter than the interval has a hit. -/
theorem exists_nearestAt (positive : 0 < m.units)
    (short : (10 : ℝ) ^ place / 2 ^ m.exponent < m.gapBelow + 1 / 2) :
    ∃ digits, m.nearestAt tie place = some digits := by
  have unit : (0 : ℝ) < 2 ^ m.exponent := by positivity
  have scale := m.scale_pos place
  have step := m.scaleStep_pos place
  have gap := m.gapBelow_pos
  obtain ⟨below, isBelow⟩ :
      ∃ below, m.scaleQuarters place (4 * m.units) / m.scaleStep place = below := ⟨_, rfl⟩
  have under : (below : ℝ) * 10 ^ place / 2 ^ m.exponent ≤ m.units := by
    have : below * m.scaleStep place ≤ m.scaleQuarters place (4 * m.units) := by
      rw [← isBelow]
      exact Nat.div_mul_le_self _ _
    rw [decimal_le_iff, quarter_eq] at this
    rw [div_le_iff₀ unit]
    refine this.trans_eq ?_
    push_cast
    ring
  have beyond : (m.units : ℝ) < (below + 1 : ℕ) * 10 ^ place / 2 ^ m.exponent := by
    have : ¬(below + 1) * m.scaleStep place ≤ m.scaleQuarters place (4 * m.units) := by
      rw [not_le, ← isBelow, mul_comm (_ + 1)]
      exact Nat.lt_mul_div_succ _ step
    rw [decimal_le_iff, quarter_eq, not_le] at this
    rw [lt_div_iff₀ unit]
    refine lt_of_eq_of_lt ?_ this
    push_cast
    ring
  have next : ((below + 1 : ℕ) : ℝ) * 10 ^ place / 2 ^ m.exponent =
      below * 10 ^ place / 2 ^ m.exponent + 10 ^ place / 2 ^ m.exponent := by
    push_cast
    ring
  have hit : m.readsBack place below = true ∨ m.readsBack place (below + 1) = true := by
    rw [readsBack_iff positive, readsBack_iff positive]
    rcases lt_or_ge ((m.units : ℝ) - m.gapBelow) (below * 10 ^ place / 2 ^ m.exponent) with
      near | far
    · exact Or.inl (Holds.of_strict near (by linarith))
    · exact Or.inr (Holds.of_strict (by linarith) (by rw [next]; linarith))
  unfold nearestAt
  simp only [isBelow]
  split
  case h_1 miss miss' =>
    rw [miss, miss'] at hit
    simp at hit
  case h_2 => exact ⟨_, rfl⟩
  case h_3 => exact ⟨_, rfl⟩
  case h_4 =>
    split
    · exact ⟨_, rfl⟩
    · split
      · exact ⟨_, rfl⟩
      · cases tie <;> exact ⟨_, rfl⟩

/-- A search whose last try has a hit finds one. -/
theorem readsBack_search {leading : ℤ} {tries count : ℕ}
    (last : ∃ digits, m.nearestAt tie (leading + 1 - (count + tries : ℕ)) = some digits) :
    m.readsBack (m.search tie leading tries count).place (m.search tie leading tries count).digits =
      true := by
  induction tries generalizing count with
  | zero =>
    obtain ⟨digits, found⟩ := last
    unfold search
    rw [Nat.add_zero] at found
    simp only [found]
    exact readsBack_nearestAt found
  | succ tries ih =>
    unfold search
    dsimp only
    cases found : m.nearestAt tie (leading + 1 - count) with
    | some digits => exact readsBack_nearestAt found
    | none => exact ih (by rwa [Nat.add_right_comm, Nat.add_assoc])

/-- Seventeen digits suffice. -/
theorem Legal.exists_seventeen (legal : m.Legal) (tie : Tie) :
    ∃ digits, m.nearestAt tie (m.leading + 1 - (17 : ℕ)) = some digits := by
  have unit : (0 : ℝ) < 2 ^ m.exponent := by positivity
  refine exists_nearestAt legal.positive ?_
  have step : (10 : ℝ) ^ (m.leading + 1 - (17 : ℕ)) / 2 ^ m.exponent ≤ m.units / 10 ^ 16 := by
    rw [show m.leading + 1 - (17 : ℕ) = m.leading - (16 : ℕ) by omega, zpow_sub₀ (by norm_num),
      zpow_natCast, div_div, mul_comm, ← div_div]
    refine div_le_div_of_nonneg_right ?_ (by positivity)
    rw [div_le_iff₀ unit]
    exact leading_le legal.positive
  refine lt_of_le_of_lt step ?_
  unfold gapBelow
  split_ifs with narrow
  · have units : (m.units : ℝ) = 2 ^ 52 := by exact_mod_cast (legal.narrow.mp narrow).1
    rw [units]
    norm_num
  · have units : (m.units : ℝ) < 2 ^ 53 := by exact_mod_cast legal.stored.below
    rw [div_lt_iff₀ (by positivity)]
    refine units.trans ?_
    norm_num

/-- **The digits that are written are rounded to the magnitude.** -/
theorem Legal.rounded_shortest (legal : m.Legal) (tie : Tie) :
    rounded (m.shortest tie).value = m.value := by
  unfold shortest
  rw [Scaled.value_trim]
  exact legal.rounded_of_readsBack (readsBack_search (legal.exists_seventeen tie))

end Magnitude

end Easing.Decimal
