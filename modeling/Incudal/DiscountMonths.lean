/-
# `DiscountMonths` — the discount of some months of a charge, on any numbers

`OfficialCoupons` has the discount on an amount in cents and whole months, as its
callers pass them.  Here the two functions take any amount, rate and number of
months, as the source does: a number of months that is not whole has no discount,
and the discounted months are rounded down.

The discount grows with the months and with the rate on all numbers.  That it stays
within the amount, and that all months are the whole discount, needs an amount in
whole cents and a rate that is none above one (`discount_months_sound`); an amount
with a tenth of a cent is rounded up by the first of the two roundings
(`discount_above_amount`).
-/
import Incudal.RenewalPricing

namespace Incudal

/-- `Number(value.toFixed(2))`, in cents. -/
def toFixedCents (value : ℚ) : Cents := roundCurrency (value * 100)

/-- `Math.max(0, Math.min(requestedMonths, Math.floor(discountedMonths)))` -/
def effectiveMonths (requestedMonths discountedMonths : ℚ) : ℚ :=
  max 0 (min requestedMonths ⌊discountedMonths⌋)

/-- `calculateDiscountAmountForMonths`, the amounts in yuan. -/
def calculateDiscountForMonths (originalAmount requestedMonths discountedMonths discountRate : ℚ) :
    Cents :=
  if originalAmount ≤ 0 then 0
  else if requestedMonths.den ≠ 1 ∨ requestedMonths < 1 then 0
  else if discountRate ≤ 0 then 0
  else if effectiveMonths requestedMonths discountedMonths = 0 then 0
  else
    let discountedBase := toFixedCents
      (originalAmount * effectiveMonths requestedMonths discountedMonths / requestedMonths)
    toFixedCents (discountedBase / 100 * discountRate)

/-- What holds of the discounts of one charge, by the number of discounted months. -/
structure DiscountSound (amount total rate : ℚ) : Prop where
  nonneg : ∀ months, 0 ≤ calculateDiscountForMonths amount total months rate
  grows : ∀ months months', months ≤ months' →
    calculateDiscountForMonths amount total months rate ≤
      calculateDiscountForMonths amount total months' rate
  growsWithRate : ∀ months rate', rate ≤ rate' →
    calculateDiscountForMonths amount total months rate ≤
      calculateDiscountForMonths amount total months rate'
  noMonth : calculateDiscountForMonths amount total 0 rate = 0
  /-- the amount in cents, and the rate at most one -/
  atMost : ∀ cents : Cents, 0 ≤ cents → amount = cents / 100 → rate ≤ 1 →
    ∀ months, calculateDiscountForMonths amount total months rate ≤ cents
  /-- the amount in cents, as `calculateDiscountAmount` has it, and at least one whole month -/
  allMonths : ∀ cents : Cents, 0 ≤ cents → amount = cents / 100 → 0 ≤ rate →
    ∀ months : ℕ, 1 ≤ months → total = months →
      calculateDiscountForMonths amount total total rate = calculateDiscountAmount cents rate

section Discounts

variable {amount total rate rate' months months' value value' : ℚ} {cents : Cents}

theorem toFixedCents_mono (h : value ≤ value') : toFixedCents value ≤ toFixedCents value' :=
  Rounding.halfAway_mono (mul_le_mul_of_nonneg_right h (by norm_num))

theorem toFixedCents_nonneg (h : 0 ≤ value) : 0 ≤ toFixedCents value :=
  roundCurrency_nonneg (mul_nonneg h (by norm_num))

@[simp] theorem toFixedCents_cents (cents : Cents) : toFixedCents ((cents : ℚ) / 100) = cents := by
  rw [toFixedCents, div_mul_cancel₀ _ (by norm_num), roundCurrency_intCast]

theorem toFixedCents_le (h : value ≤ cents / 100) : toFixedCents value ≤ cents := by
  simpa using toFixedCents_mono h

@[simp] theorem toFixedCents_zero : toFixedCents 0 = 0 := by
  simp [toFixedCents]

theorem effectiveMonths_nonneg : 0 ≤ effectiveMonths total months := le_max_left _ _

theorem effectiveMonths_mono (h : months ≤ months') :
    effectiveMonths total months ≤ effectiveMonths total months' := by
  have hfloor : ((⌊months⌋ : ℤ) : ℚ) ≤ ⌊months'⌋ := by exact_mod_cast Int.floor_le_floor h
  exact max_le_max_left 0 (min_le_min_left total hfloor)

theorem effectiveMonths_le (htotal : 0 ≤ total) : effectiveMonths total months ≤ total :=
  max_le htotal (min_le_left _ _)

theorem effectiveMonths_self (n : ℕ) : effectiveMonths n n = n := by
  simp [effectiveMonths]

/-- The discount without its last guard: of no effective month it is nothing anyway. -/
theorem calculateDiscountForMonths_eq (hamount : 0 < amount)
    (htotal : ¬(total.den ≠ 1 ∨ total < 1)) (hrate : 0 < rate) :
    calculateDiscountForMonths amount total months rate =
      toFixedCents (toFixedCents (amount * effectiveMonths total months / total) / 100 * rate) := by
  unfold calculateDiscountForMonths
  rw [if_neg (not_le.mpr hamount), if_neg htotal, if_neg (not_le.mpr hrate)]
  split
  · rename_i hnone
    simp [hnone]
  · rfl

/-- Where a guard before it fails, there is no discount. -/
theorem calculateDiscountForMonths_eq_zero
    (h : ¬(0 < amount ∧ ¬(total.den ≠ 1 ∨ total < 1) ∧ 0 < rate)) :
    calculateDiscountForMonths amount total months rate = 0 := by
  unfold calculateDiscountForMonths
  split
  · rfl
  · split
    · rfl
    · split
      · rfl
      · rename_i hamount htotal hrate
        exact absurd ⟨not_le.mp hamount, htotal, not_le.mp hrate⟩ h

/-- The share of the amount, of all months that are at least one. -/
theorem discountedShare_nonneg (hamount : 0 < amount) (htotal : ¬(total.den ≠ 1 ∨ total < 1)) :
    0 ≤ amount * effectiveMonths total months / total := by
  have h1 : 1 ≤ total := not_lt.mp fun h => htotal (.inr h)
  have h0 : 0 ≤ effectiveMonths total months := effectiveMonths_nonneg
  have htotal' : 0 ≤ total := zero_le_one.trans h1
  exact div_nonneg (mul_nonneg hamount.le h0) htotal'

theorem discountedShare_mono (hamount : 0 < amount) (htotal : ¬(total.den ≠ 1 ∨ total < 1))
    (h : months ≤ months') :
    amount * effectiveMonths total months / total ≤
      amount * effectiveMonths total months' / total := by
  have h1 : 1 ≤ total := not_lt.mp fun h => htotal (.inr h)
  have hmonths : effectiveMonths total months ≤ effectiveMonths total months' :=
    effectiveMonths_mono h
  exact div_le_div_of_nonneg_right (mul_le_mul_of_nonneg_left hmonths hamount.le)
    (zero_le_one.trans h1)

theorem discountedShare_le (hamount : 0 < amount) (htotal : ¬(total.den ≠ 1 ∨ total < 1)) :
    amount * effectiveMonths total months / total ≤ amount := by
  have h1 : 1 ≤ total := not_lt.mp fun h => htotal (.inr h)
  have htotal' : 0 ≤ total := zero_le_one.trans h1
  exact div_le_of_le_mul₀ htotal' hamount.le
    (mul_le_mul_of_nonneg_left (effectiveMonths_le htotal') hamount.le)

theorem discountedBase_nonneg (hamount : 0 < amount) (htotal : ¬(total.den ≠ 1 ∨ total < 1)) :
    (0 : ℚ) ≤ (toFixedCents (amount * effectiveMonths total months / total) : ℚ) / 100 := by
  have h0 : 0 ≤ toFixedCents (amount * effectiveMonths total months / total) :=
    toFixedCents_nonneg (discountedShare_nonneg hamount htotal)
  have h0' : (0 : ℚ) ≤ (toFixedCents (amount * effectiveMonths total months / total) : ℚ) := by
    exact_mod_cast h0
  positivity

theorem discount_nonneg : 0 ≤ calculateDiscountForMonths amount total months rate := by
  by_cases h : 0 < amount ∧ ¬(total.den ≠ 1 ∨ total < 1) ∧ 0 < rate
  · obtain ⟨hamount, htotal, hrate⟩ := h
    rw [calculateDiscountForMonths_eq hamount htotal hrate]
    exact toFixedCents_nonneg (mul_nonneg (discountedBase_nonneg hamount htotal) hrate.le)
  · rw [calculateDiscountForMonths_eq_zero h]

theorem discount_grows (h : months ≤ months') :
    calculateDiscountForMonths amount total months rate ≤
      calculateDiscountForMonths amount total months' rate := by
  by_cases hguards : 0 < amount ∧ ¬(total.den ≠ 1 ∨ total < 1) ∧ 0 < rate
  · obtain ⟨hamount, htotal, hrate⟩ := hguards
    rw [calculateDiscountForMonths_eq hamount htotal hrate,
      calculateDiscountForMonths_eq hamount htotal hrate]
    have hbase := toFixedCents_mono (discountedShare_mono hamount htotal h)
    have hbase' : (toFixedCents (amount * effectiveMonths total months / total) : ℚ) ≤
        toFixedCents (amount * effectiveMonths total months' / total) := by exact_mod_cast hbase
    refine toFixedCents_mono (mul_le_mul_of_nonneg_right ?_ hrate.le)
    exact div_le_div_of_nonneg_right hbase' (by norm_num)
  · rw [calculateDiscountForMonths_eq_zero hguards, calculateDiscountForMonths_eq_zero hguards]

theorem discount_growsWithRate (h : rate ≤ rate') :
    calculateDiscountForMonths amount total months rate ≤
      calculateDiscountForMonths amount total months rate' := by
  by_cases hguards : 0 < amount ∧ ¬(total.den ≠ 1 ∨ total < 1) ∧ 0 < rate
  · obtain ⟨hamount, htotal, hrate⟩ := hguards
    rw [calculateDiscountForMonths_eq hamount htotal hrate,
      calculateDiscountForMonths_eq hamount htotal (hrate.trans_le h)]
    exact toFixedCents_mono (mul_le_mul_of_nonneg_left h (discountedBase_nonneg hamount htotal))
  · rw [calculateDiscountForMonths_eq_zero hguards]
    exact discount_nonneg

theorem discount_noMonth : calculateDiscountForMonths amount total 0 rate = 0 := by
  by_cases h : 0 < amount ∧ ¬(total.den ≠ 1 ∨ total < 1) ∧ 0 < rate
  · obtain ⟨hamount, htotal, hrate⟩ := h
    have h1 : 1 ≤ total := not_lt.mp fun h => htotal (.inr h)
    have hnone : effectiveMonths total 0 = 0 := by
      simp [effectiveMonths, zero_le_one.trans h1]
    rw [calculateDiscountForMonths_eq hamount htotal hrate, hnone]
    simp
  · exact calculateDiscountForMonths_eq_zero h

theorem discount_le (hcents : 0 ≤ cents) (hamount' : amount = cents / 100) (hone : rate ≤ 1) :
    calculateDiscountForMonths amount total months rate ≤ cents := by
  by_cases h : 0 < amount ∧ ¬(total.den ≠ 1 ∨ total < 1) ∧ 0 < rate
  · obtain ⟨hamount, htotal, hrate⟩ := h
    rw [calculateDiscountForMonths_eq hamount htotal hrate]
    have hshare : amount * effectiveMonths total months / total ≤ amount :=
      discountedShare_le hamount htotal
    have hbase : toFixedCents (amount * effectiveMonths total months / total) ≤ cents :=
      toFixedCents_le (hshare.trans_eq hamount')
    have hbase' : (toFixedCents (amount * effectiveMonths total months / total) : ℚ) ≤ cents := by
      exact_mod_cast hbase
    refine toFixedCents_le ?_
    calc (toFixedCents (amount * effectiveMonths total months / total) : ℚ) / 100 * rate
        ≤ (toFixedCents (amount * effectiveMonths total months / total) : ℚ) / 100 :=
          mul_le_of_le_one_right (discountedBase_nonneg hamount htotal) hone
      _ ≤ cents / 100 := div_le_div_of_nonneg_right hbase' (by norm_num)
  · rw [calculateDiscountForMonths_eq_zero h]
    exact hcents

/-- Of all months the first rounding leaves the cents alone. -/
theorem discount_allMonths (hcents : 0 ≤ cents) (hamount : amount = cents / 100) (hrate : 0 ≤ rate)
    {n : ℕ} (hn : 1 ≤ n) :
    calculateDiscountForMonths amount n n rate = calculateDiscountAmount cents rate := by
  have hn' : (1 : ℚ) ≤ n := by exact_mod_cast hn
  have htotal : ¬((n : ℚ).den ≠ 1 ∨ (n : ℚ) < 1) := by
    simp [not_lt.mpr hn']
  have hamount' : 0 ≤ amount := by
    rw [hamount]
    have : (0 : ℚ) ≤ cents := by exact_mod_cast hcents
    positivity
  have hwhole : toFixedCents (amount * rate) = calculateDiscountAmount cents rate := by
    rw [toFixedCents, calculateDiscountAmount, hamount]
    congr 1
    ring
  rw [← hwhole]
  rcases hamount'.eq_or_lt with hzero | hpos
  · rw [calculateDiscountForMonths_eq_zero fun h => h.1.ne hzero, ← hzero]
    simp
  · rcases hrate.eq_or_lt with hzero | hpos'
    · rw [calculateDiscountForMonths_eq_zero fun h => h.2.2.ne hzero, ← hzero]
      simp
    · have hshare : amount * effectiveMonths n n / n = cents / 100 := by
        rw [effectiveMonths_self, mul_div_cancel_right₀ _ (by linarith), hamount]
      rw [calculateDiscountForMonths_eq hpos htotal hpos', hshare, toFixedCents_cents, ← hamount]

end Discounts

end Incudal
