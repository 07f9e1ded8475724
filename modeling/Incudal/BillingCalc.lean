/-
# `BillingCalc` — prices per day, remaining days and remaining value

The computations of `lib/billing-calc.ts` and of the coupon matching.  All
amounts are in cents; values between two roundings are exact rationals, and
`toFixed(2)` is `roundCurrency`.
-/
import Incudal.Store
import Mathlib.Data.List.Sort

namespace Incudal

/-! ## Cycles and days -/

/-- `getCycleDays`: a month counts 31 days, in the table of the source and beyond it. -/
def getCycleDays (billingCycle : ℕ) : ℕ := billingCycle * 31

/-- `calculateDailyPrice`. -/
def calculateDailyPrice (price : ℚ) (billingCycle : ℕ) : ℚ := price / getCycleDays billingCycle

/-- `calculateDiscountedPrice`. -/
def calculateDiscountedPrice (originalPrice discountRate : ℚ) : Cents :=
  roundCurrency (originalPrice * (1 - discountRate))

/-- The price that the value computations start from. -/
def effectivePrice (price discountRate : ℚ) : ℚ :=
  if discountRate > 0 then calculateDiscountedPrice price discountRate else price

/-- Milliseconds of a day, as the remaining days are counted in. -/
def msPerDay : ℤ := 24 * 60 * 60 * 1000

/-- `calculateRemainingDays`: whole days, rounded up. -/
def calculateRemainingDays (expiresAt now : Time) : ℤ :=
  max 0 ⌈((expiresAt - now : ℤ) : ℚ) / msPerDay⌉

/-- `calculateRemainingDaysPrecise`. -/
def calculateRemainingDaysPrecise (expiresAt now : Time) : ℚ :=
  max 0 (((expiresAt - now : ℤ) : ℚ) / msPerDay)

/-- `calculateRemainingValue`. -/
def calculateRemainingValue (price : ℚ) (billingCycle : ℕ) (remainingDays : ℤ)
    (discountRate : ℚ) : Cents :=
  roundCurrency
    (calculateDailyPrice (effectivePrice price discountRate) billingCycle * remainingDays)

/-- `calculatePriceDiff`: less than a cent counts as nothing. -/
def calculatePriceDiff (oldPrice : ℚ) (oldBillingCycle : ℕ) (newPrice : ℚ)
    (newBillingCycle : ℕ) (remainingDays discountRate : ℚ) : Cents :=
  let oldDailyPrice := calculateDailyPrice (effectivePrice oldPrice discountRate) oldBillingCycle
  let newDailyPrice := calculateDailyPrice (effectivePrice newPrice discountRate) newBillingCycle
  let priceDiff := (newDailyPrice - oldDailyPrice) * remainingDays
  if |priceDiff| < 1 then 0 else roundCurrency priceDiff

/-- What `calculatePlanChangeDetails` leaves for the change itself. -/
structure PlanChangeCalcResult where
  priceDiff : Cents
  isUpgrade : Bool
deriving DecidableEq, Repr

/-- `calculatePlanChangeDetails`: both values are rounded before they are compared. -/
def calculatePlanChangeDetails (oldPrice : ℚ) (oldBillingCycle : ℕ) (newPrice : ℚ)
    (newBillingCycle : ℕ) (remainingDays discountRate : ℚ) : PlanChangeCalcResult :=
  let oldDailyPrice := calculateDailyPrice (effectivePrice oldPrice discountRate) oldBillingCycle
  let newDailyPrice := calculateDailyPrice (effectivePrice newPrice discountRate) newBillingCycle
  let remainingValue := roundCurrency (oldDailyPrice * remainingDays)
  let newPlanCost := roundCurrency (newDailyPrice * remainingDays)
  { priceDiff := newPlanCost - remainingValue
    isUpgrade := decide (newDailyPrice > oldDailyPrice) }

/-! ## Coupon usages against bills -/

/-- A bill and a usage that fit, and how far apart they were written. -/
structure CouponCandidate where
  distance : ℤ
  recordIndex : ℕ
  usageIndex : ℕ
deriving DecidableEq, Repr

/-- The usage type that goes with a bill type. -/
def usageTypeOf : BillingRecordType → Option CouponUsageType
  | .newPurchase => some .purchase
  | .renew => some .renewal
  | _ => none

/-- The pairs whose paid amounts agree. -/
def couponCandidates (records : List BillingRecord) (usages : List CouponUsage) :
    List CouponCandidate :=
  records.zipIdx.flatMap fun (record, recordIndex) =>
    match usageTypeOf record.type with
    | none => []
    | some usageType =>
        usages.zipIdx.filterMap fun (usage, usageIndex) =>
          if usage.type = usageType ∧ usage.originalPrice - usage.discountAmount = record.amount
          then some { distance := |record.createdAt - usage.createdAt|, recordIndex, usageIndex }
          else none

/-- The order of the candidates: by distance, then by the indices. -/
def CouponCandidate.le (a b : CouponCandidate) : Bool :=
  decide (a.distance < b.distance) || (a.distance == b.distance &&
    (decide (a.recordIndex < b.recordIndex) || (a.recordIndex == b.recordIndex &&
      decide (a.usageIndex ≤ b.usageIndex))))

/-- `matchCouponUsagesToBillingRecords`: the pairs taken, nearest first, each
bill and each usage once. -/
def matchCouponUsagesToBillingRecords (records : List BillingRecord) (usages : List CouponUsage) :
    List CouponCandidate :=
  ((couponCandidates records usages).insertionSort (fun a b => a.le b)).foldl
    (fun matched c =>
      if matched.any fun m => m.recordIndex == c.recordIndex || m.usageIndex == c.usageIndex
      then matched
      else matched ++ [c]) []

/-- The usage matched to the bill at an index. -/
def matchedUsage (records : List BillingRecord) (usages : List CouponUsage) (recordIndex : ℕ) :
    Option CouponUsage :=
  match (matchCouponUsagesToBillingRecords records usages).find? (·.recordIndex == recordIndex) with
  | some c => usages[c.usageIndex]?
  | none => none

end Incudal
