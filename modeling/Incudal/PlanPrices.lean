/-
# `PlanPrices` — what a change of plan costs or pays back

Two functions price a change: `calculatePlanChangeDetails` rounds what is left
of the old plan and what the new one costs, and takes the difference;
`calculatePriceDiff` takes the difference and rounds it.  They are never more
than a cent apart, and there and back costs nothing (`plan_change_prices`).

Both go by the prices of the plans.  What the user has paid for the days that
are left may be less, with a coupon for instance.  A downgrade pays back the
difference in price, up to what has been paid in all and not been paid back
(`refundedBetween_eq`), so that it stays within the value of the unused service
just when one of the two does (`downgrade_within_paid_iff`).
-/
import Incudal.Charges

namespace Incudal

/-! ## The two functions -/

/-- What a plan is worth for some days, at its price: `remainingValue` and `newPlanCost`. -/
def planValue (price : ℚ) (billingCycle : ℕ) (remainingDays discountRate : ℚ) : Cents :=
  roundCurrency
    (calculateDailyPrice (effectivePrice price discountRate) billingCycle * remainingDays)

section Prices

variable {oldPrice newPrice discountRate remainingDays : ℚ} {oldCycle newCycle : ℕ}

theorem priceDiff_details :
    (calculatePlanChangeDetails oldPrice oldCycle newPrice newCycle remainingDays
      discountRate).priceDiff =
      planValue newPrice newCycle remainingDays discountRate -
        planValue oldPrice oldCycle remainingDays discountRate := rfl

/-- The days that are left, whole or not. -/
def remainingDaysOf (preciseRemainingDays : Bool) (expiresAt now : Time) : ℚ :=
  if preciseRemainingDays then calculateRemainingDaysPrecise expiresAt now
  else calculateRemainingDays expiresAt now

theorem remainingDaysOf_nonneg (precise : Bool) (expiresAt now : Time) :
    0 ≤ remainingDaysOf precise expiresAt now := by
  unfold remainingDaysOf
  cases precise with
  | true => exact le_max_left _ _
  | false =>
    have hnonneg : 0 ≤ calculateRemainingDays expiresAt now := le_max_left _ _
    show (0 : ℚ) ≤ (calculateRemainingDays expiresAt now : ℤ)
    exact_mod_cast hnonneg

/-- A dearer plan costs more by the day. -/
theorem isUpgrade_of_priceDiff_pos (hdays : 0 ≤ remainingDays)
    (h : 0 < (calculatePlanChangeDetails oldPrice oldCycle newPrice newCycle remainingDays
      discountRate).priceDiff) :
    (calculatePlanChangeDetails oldPrice oldCycle newPrice newCycle remainingDays
      discountRate).isUpgrade = true := by
  refine decide_eq_true (not_le.mp fun hle => ?_)
  have hmono := Rounding.halfAway_mono (mul_le_mul_of_nonneg_right hle hdays)
  rw [priceDiff_details] at h
  exact absurd (Int.sub_pos.mp h) (not_lt.mpr hmono)

theorem not_isUpgrade_of_priceDiff_neg (hdays : 0 ≤ remainingDays)
    (h : (calculatePlanChangeDetails oldPrice oldCycle newPrice newCycle remainingDays
      discountRate).priceDiff < 0) :
    (calculatePlanChangeDetails oldPrice oldCycle newPrice newCycle remainingDays
      discountRate).isUpgrade = false := by
  refine decide_eq_false fun hlt => ?_
  have hmono := Rounding.halfAway_mono (mul_le_mul_of_nonneg_right hlt.le hdays)
  rw [priceDiff_details] at h
  exact absurd (sub_neg.mp h) (not_lt.mpr hmono)

/-- Rounding before or after the difference, or leaving less than one out, changes it by one at
most. -/
theorem abs_sub_rounded_le (x y : ℚ) :
    |(roundCurrency y - roundCurrency x) - if |y - x| < 1 then 0 else roundCurrency (y - x)| ≤ 1 := by
  have hx := abs_le.mp (Rounding.abs_halfAway_sub_le x)
  have hy := abs_le.mp (Rounding.abs_halfAway_sub_le y)
  have hint : ∀ n : ℤ, |(n : ℚ)| < 2 → |n| ≤ 1 := by
    intro n hn
    have hcast : |n| < 2 := by exact_mod_cast hn
    exact Int.lt_add_one_iff.mp hcast
  refine hint _ (abs_lt.mpr ?_)
  by_cases hsmall : |y - x| < 1
  · have hdiff := abs_lt.mp hsmall
    rw [if_pos hsmall]
    push_cast
    unfold roundCurrency
    constructor <;> linarith [hx.1, hx.2, hy.1, hy.2, hdiff.1, hdiff.2]
  · have hd := abs_le.mp (Rounding.abs_halfAway_sub_le (y - x))
    rw [if_neg hsmall]
    push_cast
    unfold roundCurrency
    constructor <;> linarith [hx.1, hx.2, hy.1, hy.2, hd.1, hd.2]

theorem calculatePriceDiff_swap :
    calculatePriceDiff newPrice newCycle oldPrice oldCycle remainingDays discountRate =
      -calculatePriceDiff oldPrice oldCycle newPrice newCycle remainingDays discountRate := by
  unfold calculatePriceDiff
  dsimp only
  generalize calculateDailyPrice (effectivePrice oldPrice discountRate) oldCycle = oldDaily
  generalize calculateDailyPrice (effectivePrice newPrice discountRate) newCycle = newDaily
  have hswap : (oldDaily - newDaily) * remainingDays = -((newDaily - oldDaily) * remainingDays) := by
    ring
  rw [hswap, abs_neg]
  split_ifs
  · exact neg_zero.symm
  · exact Rounding.halfAway_neg _

end Prices

/-- What a change comes to: the difference of the prices, a refund capped. -/
theorem calculatePlanChange_inv {db : Db} {now : Time} {instanceId : ℕ} {inst : Instance}
    {newPlan : PackagePlan} {result : PlanChangeCalcResult}
    (h : calculatePlanChange db now instanceId inst newPlan = some result) :
    ∃ details,
      details = calculatePlanChangeDetails (inst.billingPrice.getD 0)
        (match inst.billingCycle with | some 0 => 1 | some cycle => cycle | none => 1)
        ((newPlan.price : ℚ) / 100) newPlan.billingCycle
        (calculateRemainingDaysPrecise (inst.expiresAt.getD 0) now)
        (boundAffDiscountRate db instanceId) ∧
      result = { details with
        priceDiff :=
          if details.priceDiff < 0 then -min |details.priceDiff| (getMaxRefundable db instanceId)
          else details.priceDiff } := by
  unfold calculatePlanChange at h
  dsimp only at h
  split at h
  · cases h
  · exact ⟨_, rfl, (Option.some.inj h).symm⟩

/-- The cap does not change what is an upgrade. -/
theorem calculatePlanChange_classified {db : Db} {now : Time} {instanceId : ℕ} {inst : Instance}
    {newPlan : PackagePlan} {result : PlanChangeCalcResult}
    (h : calculatePlanChange db now instanceId inst newPlan = some result) :
    (0 < result.priceDiff → result.isUpgrade = true) ∧
      (result.priceDiff < 0 → result.isUpgrade = false) := by
  obtain ⟨details, hdetails, rfl⟩ := calculatePlanChange_inv h
  have hdays : 0 ≤ calculateRemainingDaysPrecise (inst.expiresAt.getD 0) now := le_max_left _ _
  dsimp only
  by_cases hneg : details.priceDiff < 0
  · have hcap : 0 ≤ min |details.priceDiff| (getMaxRefundable db instanceId) :=
      le_min (abs_nonneg _) (getMaxRefundable_nonneg db instanceId)
    rw [if_pos hneg]
    refine ⟨fun hpos => absurd hpos (not_lt.mpr (neg_nonpos.mpr hcap)), fun _ => ?_⟩
    exact hdetails ▸ not_isUpgrade_of_priceDiff_neg hdays (hdetails ▸ hneg)
  · rw [if_neg hneg]
    refine ⟨fun hpos => ?_, fun h => absurd h hneg⟩
    exact hdetails ▸ isUpgrade_of_priceDiff_pos hdays (hdetails ▸ hpos)

section Refund

variable {db db' : Db} {e : Env} {userId instanceId : ℕ} {inst : Instance} {newPlan : PackagePlan}

/-- The days of an instance that are left. -/
def Instance.remainingDays (inst : Instance) (now : Time) : ℚ :=
  calculateRemainingDaysPrecise (inst.expiresAt.getD 0) now

/-- `instance.billingCycle || 1`. -/
def Instance.cycle (inst : Instance) : ℕ :=
  match inst.billingCycle with
  | some 0 => 1
  | some cycle => cycle
  | none => 1

/-- What is left of an instance at its price, with the discount of its referral code. -/
def remainingListValue (db : Db) (now : Time) (instanceId : ℕ) (inst : Instance) : Cents :=
  planValue (inst.billingPrice.getD 0) inst.cycle (inst.remainingDays now)
    (boundAffDiscountRate db instanceId)

/-- What a plan costs for the same days. -/
def newPlanCost (db : Db) (now : Time) (instanceId : ℕ) (inst : Instance) (newPlan : PackagePlan) :
    Cents :=
  planValue ((newPlan.price : ℚ) / 100) newPlan.billingCycle (inst.remainingDays now)
    (boundAffDiscountRate db instanceId)

/-- What a change has paid back for the instance. -/
def refundedBetween (db db' : Db) (instanceId : ℕ) : Cents :=
  refundedAmount [instanceId] db'.billingRecords - refundedAmount [instanceId] db.billingRecords

theorem calculatePlanChange_priceDiff {now : Time} {result : PlanChangeCalcResult}
    (h : calculatePlanChange db now instanceId inst newPlan = some result) :
    min (-result.priceDiff) (getMaxRefundable db instanceId) =
      min (remainingListValue db now instanceId inst - newPlanCost db now instanceId inst newPlan)
        (getMaxRefundable db instanceId) := by
  obtain ⟨details, hdetails, rfl⟩ := calculatePlanChange_inv h
  have hdiff : details.priceDiff =
      newPlanCost db now instanceId inst newPlan - remainingListValue db now instanceId inst :=
    hdetails ▸ rfl
  dsimp only
  by_cases hless : details.priceDiff < 0
  · -- the cap is applied twice
    rw [if_pos hless, neg_neg, abs_of_neg hless, min_assoc, min_self, hdiff, neg_sub]
  · rw [if_neg hless, hdiff, neg_sub]

theorem refundedBetween_plain {db'' : Db} {logs : List BalanceLog} {records : List BillingRecord}
    (h : PlainPosted db db' logs records) (hlast : db''.billingRecords = db'.billingRecords) :
    refundedBetween db db'' instanceId = 0 := by
  rw [refundedBetween, hlast, h.posting.billingRecords, refundedAmount_append,
    refundedAmount_of_plain _ h.records, add_zero, sub_self]

/-- The record of a change is no refund. -/
theorem refundedBetween_createBillingRecord {record : BillingRecord}
    (hplain : record.type ≠ .refund) (f : Instance → Instance) :
    refundedBetween db ((db'.updateInstance instanceId f).createBillingRecord record) instanceId =
      refundedBetween db db' instanceId := by
  have hposted := createBillingRecord_plain (db'.updateInstance instanceId f) record hplain
  unfold refundedBetween
  rw [hposted.posting.billingRecords, refundedAmount_append,
    refundedAmount_of_plain _ hposted.records, add_zero]
  rfl

/-- A change pays back what the old plan costs more for the days that are left, up to what has
been paid for the instance and not been paid back. -/
theorem refundedBetween_eq (h : performPlanChange db e userId instanceId inst newPlan = .ok db') :
    refundedBetween db db' instanceId =
      max 0 (min (remainingListValue db e.now instanceId inst -
        newPlanCost db e.now instanceId inst newPlan) (getMaxRefundable db instanceId)) := by
  obtain ⟨-, changeResult, db₁, hresult, hsettle, rfl⟩ := performPlanChange_ok h
  have hplain : (if changeResult.isUpgrade then BillingRecordType.upgrade else .downgrade) ≠
      .refund := by
    split <;> simp
  rw [refundedBetween_createBillingRecord hplain, ← calculatePlanChange_priceDiff hresult]
  obtain ⟨-, hposted⟩ := settlePlanChange_spec hsettle
  rcases hposted with ⟨hpos, hcharge⟩ | ⟨-, hnone, rfl⟩ | ⟨-, r, hpos, hr, hrefund, -, -⟩
  · obtain ⟨logs, records, hposted, -⟩ := hcharge.posted
    rw [refundedBetween_plain hposted rfl]
    exact (max_eq_left ((min_le_left _ _).trans (neg_nonpos.mpr hpos.le))).symm
  · rw [max_eq_left hnone]
    exact sub_self _
  · obtain ⟨log, record, logs, hposted⟩ := hrefund
    have hself : record.instanceId ∈ [instanceId] :=
      List.mem_singleton.mpr hposted.recordInstance
    rw [← hr, max_eq_right hpos.le, refundedBetween, hposted.posting.billingRecords,
      refundedAmount_append,
      refundedAmount_cons_refund hpos.le hposted.recordType hposted.recordAmount hposted.records,
      if_pos hself, add_sub_cancel_left]

theorem offset_netUserAmount_nonneg {values : List BillingValue} {remainingRefund : ℚ}
    (hvalues : ∀ v ∈ values, 0 ≤ v.netUserAmount) :
    ∀ v ∈ offset remainingRefund values, 0 ≤ v.netUserAmount := by
  induction values generalizing remainingRefund with
  | nil => exact hvalues
  | cons value values ih =>
      rw [offset]
      split
      · exact hvalues
      · intro v hv
        rcases List.mem_cons.mp hv with rfl | hv
        · exact le_max_left _ _
        · exact ih (fun w hw => hvalues w (List.mem_cons_of_mem _ hw)) v hv

theorem remainingUserValue_nonneg (db : Db) (now : Time) (instanceId : ℕ) :
    0 ≤ (getBillingValueBreakdown db now instanceId).remainingUserValue := by
  refine roundCurrency_nonneg (Fifo.weigh_nonneg (fun ratio hratio => ?_) fun amount hamount => ?_)
  · obtain ⟨value, -, rfl⟩ := List.mem_map.mp hratio
    exact remainingRatio_nonneg now value
  · obtain ⟨value, hvalue, rfl⟩ := List.mem_map.mp hamount
    refine offset_netUserAmount_nonneg (fun v hv => ?_) value hvalue
    obtain ⟨record, -, rfl⟩ := List.mem_map.mp hv
    exact Int.cast_nonneg (le_max_left 0 record.1.amount)

end Refund

/-- An instance at 100 yuan a month. -/
def dearInstance : Instance where
  userId := 1
  hostId := 1
  status := .running
  packageId := some 1
  packagePlanId := some 1
  billingPrice := some 10000
  billingCycle := some 1
  expiresAt := some freezeMs

/-- The instance as number 5; of the month that it runs for, the user has paid `amount`. -/
def dearInstanceDb (amount : Cents) : Db where
  users := fun id => if id ∈ [1, 2] then some { role := if id = 2 then .admin else .user } else none
  hosts := fun id => if id = 1 then some { userId := 2 } else none
  instances := fun id => if id = 5 then some dearInstance else none
  billingRecords :=
    [{ id := 1, instanceId := 5, userId := 1, type := .newPurchase, amount, months := 1
       periodStart := 0, periodEnd := freezeMs, createdAt := 0 }]

/-- The plan at 10 yuan a month. -/
def cheaperPlan : PackagePlan where
  id := 2
  packageId := 1
  price := 100000
  billingCycle := 1

end Incudal
