/-
# `Refundable` — what an instance's bills still allow to refund

Two numbers are computed from the billing records of a lineage.  The cap,
`getMaxRefundable`, is all charges less all refunds.  The value breakdown
offsets the refunds against the charges, oldest service period first, and
values what is left of each charge by the share of its period that is still to
come; the remaining-refund quote is the smaller of that value and the cap.

The offsetting loop is a drawing from a queue (`map_netUserAmount_offset`), so
what the breakdown computes is stated with `Fifo.drain` and `Fifo.weigh`.
-/
import Incudal.Lineage
import Incudal.BillingCalc
import Incudal.Lib.Fifo

namespace Incudal

/-! ## The cap -/

/-- The records that count as consumption. -/
def BillingRecord.isCharge (record : BillingRecord) : Bool :=
  (record.type == .newPurchase || record.type == .renew || record.type == .upgrade)
    && decide (0 < record.amount)

/-- The sum of the charges over some instances. -/
def consumedAmount (instanceIds : List ℕ) (records : List BillingRecord) : Cents :=
  Keyed.total BillingRecord.amount
    (records.filter fun r => decide (r.instanceId ∈ instanceIds) && r.isCharge)

/-- The sum of the refunds over some instances, without their signs. -/
def refundedAmount (instanceIds : List ℕ) (records : List BillingRecord) : Cents :=
  Keyed.total (fun r => |r.amount|)
    (records.filter fun r => decide (r.instanceId ∈ instanceIds) && r.type == .refund)

/-- The billing lineage of an instance. -/
def Db.lineage (db : Db) (instanceId : ℕ) : List ℕ :=
  getInstanceBillingLineageIds db.history instanceId

/-- `getMaxRefundableForClient`, and the copy of it that the administrator's route has. -/
def getMaxRefundable (db : Db) (instanceId : ℕ) : Cents :=
  let instanceIds := db.lineage instanceId
  max 0 (consumedAmount instanceIds db.billingRecords - refundedAmount instanceIds db.billingRecords)

/-! ### Records appended -/

section Append

variable {db db' : Db} {ids : List ℕ} {records : List BillingRecord}

theorem lineage_eq (h : db'.history = db.history) (i : ℕ) : db'.lineage i = db.lineage i := by
  simp only [Db.lineage, h]

theorem refundedAmount_append (ids : List ℕ) (records records' : List BillingRecord) :
    refundedAmount ids (records ++ records')
      = refundedAmount ids records + refundedAmount ids records' := by
  simp [refundedAmount]

theorem consumedAmount_append (ids : List ℕ) (records records' : List BillingRecord) :
    consumedAmount ids (records ++ records')
      = consumedAmount ids records + consumedAmount ids records' := by
  simp [consumedAmount]

theorem consumedAmount_nonneg (ids : List ℕ) (records : List BillingRecord) :
    0 ≤ consumedAmount ids records := by
  refine List.sum_nonneg fun a ha => ?_
  obtain ⟨record, hrecord, rfl⟩ := List.mem_map.mp ha
  simp only [List.mem_filter, BillingRecord.isCharge, Bool.and_eq_true, decide_eq_true_eq] at hrecord
  exact hrecord.2.2.2.le

theorem refundedAmount_of_plain (ids : List ℕ) (h : ∀ b ∈ records, b.type ≠ .refund) :
    refundedAmount ids records = 0 := by
  have hnil : (records.filter fun r => decide (r.instanceId ∈ ids) && r.type == .refund) = [] := by
    refine List.filter_eq_nil_iff.mpr fun b hb => ?_
    simp [h b hb]
  simp [refundedAmount, hnil]

/-- A refund counts for the lineages that its instance belongs to. -/
theorem refundedAmount_cons_refund {record : BillingRecord} {r : Cents} (hr : 0 ≤ r)
    (htype : record.type = .refund) (hamount : record.amount = -r)
    (hrecords : ∀ b ∈ records, b.type ≠ .refund) :
    refundedAmount ids (record :: records) = if record.instanceId ∈ ids then r else 0 := by
  have habs : |record.amount| = r := by rw [hamount, abs_neg, abs_of_nonneg hr]
  have hrest := refundedAmount_of_plain ids hrecords
  rw [← List.singleton_append, refundedAmount_append, hrest, add_zero]
  by_cases hmem : record.instanceId ∈ ids <;> simp [refundedAmount, hmem, htype, habs]

/-- A refund is not a charge. -/
theorem consumedAmount_cons_refund {record : BillingRecord} (htype : record.type = .refund) :
    consumedAmount ids (record :: records) = consumedAmount ids records := by
  simp [consumedAmount, BillingRecord.isCharge, htype]

end Append

/-! ## The value breakdown -/

/-- A charge and what the refunds so far have left of it. -/
structure BillingValue where
  userAmount : ℚ
  hostedAmount : ℚ
  netUserAmount : ℚ
  netHostedAmount : ℚ
  periodStart : Time
  periodEnd : Time
deriving DecidableEq, Repr

/-- `BillingValueBreakdown`. -/
structure BillingValueBreakdown where
  hasPositiveBillingRecords : Bool
  totalUserValue : Cents
  totalHostedValue : Cents
  remainingUserValue : Cents
  remainingHostedValue : Cents
deriving DecidableEq, Repr

/-- The order of the charges: by the start of the period, then by age. -/
def BillingRecord.startsBefore (a b : BillingRecord) : Bool :=
  decide (a.periodStart < b.periodStart)
    || (a.periodStart == b.periodStart && decide (a.createdAt ≤ b.createdAt))

/-- The charges of a lineage in the order of their service periods. -/
def chargesInOrder (instanceIds : List ℕ) (records : List BillingRecord) : List BillingRecord :=
  (records.filter fun r => decide (r.instanceId ∈ instanceIds) && r.isCharge).insertionSort
    fun a b => a.startsBefore b

/-- What the refunds with a negative amount come to. -/
def refundsToOffset (instanceIds : List ℕ) (records : List BillingRecord) : Cents :=
  Keyed.total (fun r => |r.amount|)
    (records.filter fun r =>
      decide (r.instanceId ∈ instanceIds) && r.type == .refund && decide (r.amount < 0))

/-- The value of a charge before any refund; with a coupon the host is owed the
original price. -/
def BillingRecord.toValue (record : BillingRecord) (couponUsage : Option CouponUsage) :
    BillingValue :=
  let userAmount := max 0 record.amount
  let originalPrice := match couponUsage with
    | some usage => usage.originalPrice
    | none => userAmount
  let hostedAmount := if 0 < originalPrice then originalPrice else userAmount
  { userAmount, hostedAmount, netUserAmount := userAmount, netHostedAmount := hostedAmount
    periodStart := record.periodStart, periodEnd := record.periodEnd }

/-- What coupons have saved the user on some instances. -/
def couponDiscounts (instanceIds : List ℕ) (usages : List CouponUsage) : Cents :=
  Keyed.total CouponUsage.discountAmount (usages.filter fun u => u.instanceId.any (· ∈ instanceIds))

/-- The values of the charges of a lineage before any refund. -/
def billingValues (db : Db) (instanceIds : List ℕ) : List BillingValue :=
  let records := chargesInOrder instanceIds db.billingRecords
  let usages := db.couponUsages.filter fun u => u.instanceId.any (· ∈ instanceIds)
  records.zipIdx.map fun (record, recordIndex) =>
    record.toValue (matchedUsage records usages recordIndex)

/-- The offsetting loop: it stops when nothing of the refunds remains. -/
def offset : ℚ → List BillingValue → List BillingValue
  | _, [] => []
  | remainingRefund, value :: values =>
      if remainingRefund ≤ 0 then value :: values
      else
        let refundedUserAmount := min value.netUserAmount remainingRefund
        let netUserAmount := max 0 (value.netUserAmount - refundedUserAmount)
        { value with
            netUserAmount
            netHostedAmount :=
              if 0 < value.userAmount then
                value.hostedAmount * (netUserAmount / value.userAmount)
              else 0 } :: offset (remainingRefund - refundedUserAmount) values

/-- The share of its period that a charge has before it; nothing for a period
that is empty or over. -/
def BillingValue.remainingRatio (now : Time) (value : BillingValue) : ℚ :=
  let totalMs := value.periodEnd - value.periodStart
  if totalMs ≤ 0 ∨ value.periodEnd ≤ now then 0
  else min ((max (value.periodEnd - now) 0 : ℤ) / (totalMs : ℚ)) 1

/-- What is left of the service that the charges have paid for. -/
def remainingValue (now : Time) (values : List BillingValue) : ℚ :=
  Fifo.weigh (values.map (·.remainingRatio now)) (values.map (·.netUserAmount))

/-- `getBillingValueBreakdownForClient`. -/
def getBillingValueBreakdown (db : Db) (now : Time) (instanceId : ℕ) : BillingValueBreakdown :=
  let instanceIds := db.lineage instanceId
  let values := offset (refundsToOffset instanceIds db.billingRecords) (billingValues db instanceIds)
  { hasPositiveBillingRecords := !values.isEmpty
    totalUserValue := roundCurrency (values.map (·.netUserAmount)).sum
    totalHostedValue := roundCurrency (values.map (·.netHostedAmount)).sum
    remainingUserValue := roundCurrency (remainingValue now values)
    remainingHostedValue := roundCurrency
      (Fifo.weigh (values.map (·.remainingRatio now)) (values.map (·.netHostedAmount))) }

/-- `calculateHostedRefundAmountForClient`. -/
def calculateHostedRefundAmount (db : Db) (now : Time) (instanceId : ℕ) (requestedAmount : Cents)
    (allowHistorical : Bool) : Cents :=
  if requestedAmount ≤ 0 then 0
  else
    let breakdown := getBillingValueBreakdown db now instanceId
    if !breakdown.hasPositiveBillingRecords then requestedAmount
    else
      let useHistoricalValue := allowHistorical &&
        (decide (breakdown.remainingUserValue ≤ 0)
          || decide (breakdown.remainingUserValue < requestedAmount))
      let baseUserValue :=
        if useHistoricalValue then breakdown.totalUserValue else breakdown.remainingUserValue
      let baseHostedValue :=
        if useHistoricalValue then breakdown.totalHostedValue else breakdown.remainingHostedValue
      if baseUserValue ≤ 0 ∨ baseHostedValue ≤ 0 then 0
      else
        let refundRatio := min (max ((requestedAmount : ℚ) / baseUserValue) 0) 1
        roundCurrency (baseHostedValue * refundRatio)

/-- The hosted part of a refund reads bills, coupons and history. -/
theorem calculateHostedRefundAmount_congr {db db' : Db}
    (hrecords : db'.billingRecords = db.billingRecords) (husages : db'.couponUsages = db.couponUsages)
    (hhistory : db'.history = db.history) (now : Time) (instanceId : ℕ) (requestedAmount : Cents)
    (allowHistorical : Bool) :
    calculateHostedRefundAmount db' now instanceId requestedAmount allowHistorical
      = calculateHostedRefundAmount db now instanceId requestedAmount allowHistorical := by
  have hvalues (ids : List ℕ) : billingValues db' ids = billingValues db ids := by
    unfold billingValues
    rw [hrecords, husages]
  have hbreakdown : getBillingValueBreakdown db' now instanceId
      = getBillingValueBreakdown db now instanceId := by
    unfold getBillingValueBreakdown
    rw [lineage_eq hhistory, hrecords]
    simp only [hvalues]
  unfold calculateHostedRefundAmount
  rw [hbreakdown]

/-! ## The quote -/

/-- The discount that the fallback for instances without bills applies. -/
def affDiscountRate (db : Db) (instanceId : ℕ) : ℚ :=
  match db.affBindings instanceId with
  | none => 0
  | some codeId =>
      match db.affCodes codeId with
      | none => 0
      | some code => if code.enabled then code.discountRate else 0

/-- `refundableValue` of `calculateInstanceRemainingRefundQuote`. -/
def calculateInstanceRemainingRefundQuote (db : Db) (now : Time) (instanceId : ℕ)
    (inst : Instance) : Cents :=
  match inst.packagePlanId, inst.expiresAt, inst.billingPrice with
  | some _, some expiresAt, some billingPrice =>
      if expiresAt ≤ now then 0
      else
        let breakdown := getBillingValueBreakdown db now instanceId
        let remainingValue :=
          match breakdown.hasPositiveBillingRecords, inst.billingCycle with
          | false, some billingCycle =>
              if billingCycle ≠ 0 then
                calculateRemainingValue billingPrice billingCycle
                  (calculateRemainingDays expiresAt now) (affDiscountRate db instanceId)
              else breakdown.remainingUserValue
          | _, _ => breakdown.remainingUserValue
        min remainingValue (getMaxRefundable db instanceId)
  | _, _, _ => 0

/-! ## The loop is a drawing -/

section Offset

variable {R : ℚ} {values : List BillingValue} {now : Time}

/-- Nothing is negative before any refund. -/
theorem netUserAmount_billingValues (db : Db) (instanceIds : List ℕ) :
    ∀ v ∈ billingValues db instanceIds, 0 ≤ v.netUserAmount := by
  intro v hv
  obtain ⟨⟨record, index⟩, -, rfl⟩ := List.mem_map.mp hv
  simp only [BillingRecord.toValue, Int.cast_max, Int.cast_zero]
  exact le_max_left _ _

theorem map_netUserAmount_offset (hvalues : ∀ v ∈ values, 0 ≤ v.netUserAmount) (hR : 0 ≤ R) :
    (offset R values).map (·.netUserAmount) = Fifo.drain R (values.map (·.netUserAmount)) := by
  induction values generalizing R with
  | nil => rfl
  | cons v values ih =>
      have hrest : ∀ w ∈ values, 0 ≤ w.netUserAmount := fun w hw =>
        hvalues w (List.mem_cons_of_mem _ hw)
      rw [offset]
      split
      · rename_i hstop
        obtain rfl : R = 0 := le_antisymm hstop hR
        rw [Fifo.drain_zero]
        intro a ha
        obtain ⟨w, hw, rfl⟩ := List.mem_map.mp ha
        exact hvalues w hw
      · have hnet : max 0 (v.netUserAmount - min v.netUserAmount R)
            = v.netUserAmount - min v.netUserAmount R :=
          max_eq_right (sub_nonneg.mpr (min_le_left _ _))
        simp only [List.map_cons, Fifo.drain, hnet]
        rw [ih hrest (sub_nonneg.mpr (min_le_right _ _))]

/-- The loop does not touch the periods. -/
theorem map_remainingRatio_offset :
    (offset R values).map (·.remainingRatio now) = values.map (·.remainingRatio now) := by
  induction values generalizing R with
  | nil => rfl
  | cons v values ih =>
      rw [offset]
      split
      · rfl
      · simp only [List.map_cons, ih]
        rfl

theorem isEmpty_offset : (offset R values).isEmpty = values.isEmpty := by
  cases values with
  | nil => rfl
  | cons v values =>
      rw [offset]
      split <;> rfl

theorem remainingValue_offset (hvalues : ∀ v ∈ values, 0 ≤ v.netUserAmount) (hR : 0 ≤ R) :
    remainingValue now (offset R values)
      = Fifo.weigh (values.map (·.remainingRatio now))
          (Fifo.drain R (values.map (·.netUserAmount))) := by
  rw [remainingValue, map_remainingRatio_offset, map_netUserAmount_offset hvalues hR]

end Offset

theorem remainingRatio_nonneg (now : Time) (v : BillingValue) : 0 ≤ v.remainingRatio now := by
  unfold BillingValue.remainingRatio
  dsimp only
  split
  · exact le_rfl
  · rename_i hlive
    rw [not_or, not_le, not_le] at hlive
    refine le_min (div_nonneg ?_ ?_) zero_le_one
    · exact_mod_cast le_max_right _ _
    · exact_mod_cast hlive.1.le

theorem remainingRatio_le_one (now : Time) (v : BillingValue) : v.remainingRatio now ≤ 1 := by
  unfold BillingValue.remainingRatio
  dsimp only
  split
  · exact zero_le_one
  · exact min_le_right _ _

end Incudal
