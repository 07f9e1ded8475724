/-
# `RenewalPricing` — what a renewal costs, shown and charged

`resolveInstanceRenewalDiscount` picks at most one source of a discount: a
referral code that the user set over the coupon, else the coupon the instance
was bought with, else the referral code of the purchase.  A renewal charges the
amount it resolves to, and `getInstanceBillingInfo` shows amounts for a few
numbers of months.

The two agree, and discount and charge make up the price, except where a
referral code applies and its share of the price ends on half a cent
(`preview_eq_charge`): the resolution rounds the share and the rest apart from
each other, and both go up.
-/
import Incudal.OfficialCoupons
import Incudal.Charges

namespace Incudal

/-! ## Rows -/

/-- The columns of an AFF code that a renewal reads. -/
structure AffCodeTerms where
  id : ℕ
  code : String := ""
  packagePlanId : Option ℕ := none
  discountRate : DiscountRate
  enabled : Bool := true
deriving DecidableEq

/-- A row of `aff_bindings`; an instance has at most one. -/
structure AffBinding where
  instanceId : ℕ
  affCodeId : ℕ
  supersedesOfficialCoupon : Bool := false
deriving DecidableEq, Repr

/-- The tables that a discount is resolved from. -/
structure PromoDb extends CouponDb where
  affRebateEnabled : Bool := false
  affCodes : List AffCodeTerms := []
  affBindings : List AffBinding := []

structure RenewalDiscountInstanceInput where
  id : ℕ
  packageId : Option ℕ
  packagePlanId : Option ℕ
  userId : ℕ
deriving DecidableEq, Repr

inductive RenewalDiscountSource
  | officialCoupon | aff
deriving DecidableEq, Repr

structure RenewalDiscountResolution where
  source : Option RenewalDiscountSource := none
  discountRate : ℚ := 0
  discountAmount : Cents := 0
  finalAmount : Cents
  /-- what remains of the coupon's months -/
  discountedMonths : Option ℕ := none
  affCode : Option AffCodeTerms := none
  supersedesOfficialCoupon : Bool := false
  officialCoupon : Option OfficialCoupon := none
deriving DecidableEq

/-! ## Resolving the discount -/

/-- `calculateDiscountAmount`. -/
def calculateDiscountAmount (originalPrice discountRate : ℚ) : Cents :=
  roundCurrency (originalPrice * discountRate)

namespace PromoDb

variable (db : PromoDb)

/-- `getInstanceAffBinding`: the binding with its code. -/
def getInstanceAffBinding (instanceId : ℕ) : Option (AffCodeTerms × Bool) :=
  match Keyed.lookup AffBinding.instanceId instanceId db.affBindings with
  | none => none
  | some binding =>
      (Keyed.lookup AffCodeTerms.id binding.affCodeId db.affCodes).map
        fun affCode => (affCode, binding.supersedesOfficialCoupon)

/-- The AFF code that the instance may use: enabled, and for its plan or any. -/
def usableAff (instance_ : RenewalDiscountInstanceInput) : Option (AffCodeTerms × Bool) :=
  if db.affRebateEnabled then
    (db.getInstanceAffBinding instance_.id).filter fun (affCode, _) =>
      affCode.enabled && (affCode.packagePlanId.isNone
        || (instance_.packagePlanId.isSome && affCode.packagePlanId == instance_.packagePlanId))
  else none

/-- The coupon that the instance may use, with the rate that the validation found. -/
def usableOfficialCoupon (now : Time) (instance_ : RenewalDiscountInstanceInput)
    (requestedMonths : Option ℕ) : Option (OfficialCoupon × DiscountRate) :=
  match instance_.packageId, db.getInstancePurchaseCoupon instance_.id with
  | some packageId, some coupon =>
      let discountedMonthsUsed := db.countDiscountedMonthsForInstance coupon.id instance_.id
      if 0 < getDiscountedMonthsForRenewal coupon.renewalMode coupon.discountedChargeLimit
          discountedMonthsUsed (requestedMonths.getD 1) then
        match db.validateOfficialCoupon now
          { code := coupon.code
            packageId
            userId := instance_.userId
            checkUserLimit := false
            checkTotalUsageLimit := false
            allowExpired := true } with
        | .ok validation => some (coupon, validation.coupon.discountRate)
        | .error _ => none
      else none
  | _, _ => none

end PromoDb

/-- `applyAffDiscount`: the share and the rest are rounded apart from each other. -/
def applyAffDiscount (originalAmount : Cents) (affCode : AffCodeTerms)
    (supersedesOfficialCoupon : Bool) : RenewalDiscountResolution :=
  { source := some .aff
    discountRate := affCode.discountRate.value
    discountAmount := calculateDiscountAmount originalAmount affCode.discountRate.value
    finalAmount := calculateDiscountedPrice originalAmount affCode.discountRate.value
    affCode := some affCode
    supersedesOfficialCoupon }

/-- `applyOfficialCouponDiscount`, with what remains of the coupon's months. -/
def applyOfficialCouponDiscount (originalAmount : Cents) (coupon : OfficialCoupon)
    (discountRate : DiscountRate) (discountedMonthsRemaining requestedMonths : Option ℕ) :
    RenewalDiscountResolution :=
  let discountAmount :=
    match requestedMonths with
    | none => calculateDiscountAmount originalAmount discountRate.value
    | some requestedMonths =>
        let effectiveDiscountedMonths :=
          match discountedMonthsRemaining with
          | none => requestedMonths
          | some remaining => min requestedMonths remaining
        calculateDiscountAmountForMonths originalAmount requestedMonths effectiveDiscountedMonths
          discountRate.value
  { source := some .officialCoupon
    discountRate := discountRate.value
    discountAmount
    finalAmount := roundCurrency ((originalAmount - discountAmount : Cents) : ℚ)
    discountedMonths := discountedMonthsRemaining
    officialCoupon := some coupon }

/-- `resolveInstanceRenewalDiscount`. -/
def PromoDb.resolveInstanceRenewalDiscount (db : PromoDb) (now : Time)
    (instance_ : RenewalDiscountInstanceInput) (originalAmount : Cents)
    (requestedMonths : Option ℕ) : RenewalDiscountResolution :=
  let official := db.usableOfficialCoupon now instance_ requestedMonths
  match db.usableAff instance_, official with
  | some (affCode, true), _ => applyAffDiscount originalAmount affCode true
  | _, some (coupon, discountRate) =>
      applyOfficialCouponDiscount originalAmount coupon discountRate
        (getRemainingDiscountedMonths coupon.renewalMode coupon.discountedChargeLimit
          (db.countDiscountedMonthsForInstance coupon.id instance_.id)) requestedMonths
  | some (affCode, false), none => applyAffDiscount originalAmount affCode false
  | none, none => { finalAmount := originalAmount }

/-! ## A renewal and its preview -/

/-- An instance whose price is not negative, as no plan's is. -/
structure PricedInstance extends Instance where
  id : ℕ
  priceNonneg : 0 ≤ toInstance.billingPrice.getD 0 := by decide
deriving DecidableEq, Repr

namespace PricedInstance

variable (inst : PricedInstance)

def discountInput (userId : ℕ) : RenewalDiscountInstanceInput :=
  { id := inst.id
    packageId := inst.packageId
    packagePlanId := inst.packagePlanId
    userId }

theorem renewalAmount_nonneg (months : ℕ) : 0 ≤ inst.renewalAmount months := by
  have hprice : (0 : ℚ) ≤ inst.billingPrice.getD 0 := by exact_mod_cast inst.priceNonneg
  exact roundCurrency_nonneg (mul_nonneg (div_nonneg hprice (Nat.cast_nonneg _)) (Nat.cast_nonneg _))

end PricedInstance

section Bounds

variable {originalAmount : Cents}

theorem applyAffDiscount_bounds (h : 0 ≤ originalAmount) (affCode : AffCodeTerms) (s : Bool) :
    0 ≤ (applyAffDiscount originalAmount affCode s).finalAmount ∧
      (applyAffDiscount originalAmount affCode s).finalAmount ≤ originalAmount := by
  have h' : (0 : ℚ) ≤ originalAmount := by exact_mod_cast h
  have h0 := affCode.discountRate.nonneg
  have h1 := affCode.discountRate.le_one
  exact ⟨roundCurrency_nonneg (mul_nonneg h' (by linarith)),
    roundCurrency_le_of_le h (mul_le_of_le_one_right h' (by linarith))⟩

theorem applyOfficialCouponDiscount_final (coupon : OfficialCoupon) (rate : DiscountRate)
    (remaining months : Option ℕ) :
    (applyOfficialCouponDiscount originalAmount coupon rate remaining months).finalAmount
      = originalAmount
        - (applyOfficialCouponDiscount originalAmount coupon rate remaining months).discountAmount := by
  simp only [applyOfficialCouponDiscount, roundCurrency_intCast]

theorem applyOfficialCouponDiscount_bounds (h : 0 ≤ originalAmount) (coupon : OfficialCoupon)
    (rate : DiscountRate) (remaining months : Option ℕ) :
    0 ≤ (applyOfficialCouponDiscount originalAmount coupon rate remaining months).finalAmount ∧
      (applyOfficialCouponDiscount originalAmount coupon rate remaining months).finalAmount
        ≤ originalAmount := by
  have h' : (0 : ℚ) ≤ originalAmount := by exact_mod_cast h
  have hdiscount :
      0 ≤ (applyOfficialCouponDiscount originalAmount coupon rate remaining months).discountAmount ∧
      (applyOfficialCouponDiscount originalAmount coupon rate remaining months).discountAmount
        ≤ originalAmount := by
    cases months with
    | none =>
        exact ⟨roundCurrency_nonneg (mul_nonneg h' rate.nonneg),
          roundCurrency_le_of_le h (mul_le_of_le_one_right h' rate.le_one)⟩
    | some months => exact discountForMonths_bounds h rate.le_one _
  rw [applyOfficialCouponDiscount_final]
  exact ⟨sub_nonneg.mpr hdiscount.2, sub_le_self _ hdiscount.1⟩

theorem resolve_bounds (db : PromoDb) (now : Time) (instance_ : RenewalDiscountInstanceInput)
    (h : 0 ≤ originalAmount) (months : Option ℕ) :
    0 ≤ (db.resolveInstanceRenewalDiscount now instance_ originalAmount months).finalAmount ∧
      (db.resolveInstanceRenewalDiscount now instance_ originalAmount months).finalAmount
        ≤ originalAmount := by
  unfold PromoDb.resolveInstanceRenewalDiscount
  simp only
  split
  · exact applyAffDiscount_bounds h _ _
  · exact applyOfficialCouponDiscount_bounds h _ _ _ _
  · exact applyAffDiscount_bounds h _ _
  · exact ⟨h, le_rfl⟩

end Bounds

namespace PromoDb

/-- The resolution of an amount as a charge takes it. -/
def discounted (db : PromoDb) (now : Time) (instance_ : RenewalDiscountInstanceInput)
    (originalAmount : Cents) (h : 0 ≤ originalAmount) (months : ℕ) : Discounted :=
  let discount := db.resolveInstanceRenewalDiscount now instance_ originalAmount (some months)
  { originalAmount
    finalAmount := discount.finalAmount
    officialCoupon := discount.officialCoupon.map OfficialCoupon.id
    nonneg := (resolve_bounds db now instance_ h (some months)).1
    le := (resolve_bounds db now instance_ h (some months)).2 }

/-- The months of a renewal that a coupon discounts. -/
def appliedDiscountedMonths (discount : RenewalDiscountResolution) (months : ℕ) : ℕ :=
  match discount.discountedMonths with
  | none => months
  | some remaining => min months remaining

/-- The usage that a renewal with a coupon reserves. -/
def reserveRenewal (db : PromoDb) (now : Time) (instance_ : RenewalDiscountInstanceInput)
    (originalAmount : Cents) (months : ℕ) (discount : RenewalDiscountResolution) :
    Except String PromoDb :=
  match discount.officialCoupon, instance_.packageId with
  | some coupon, some packageId =>
      match db.reserveOfficialCouponUsage now
        { code := coupon.code
          packageId
          userId := instance_.userId
          instanceId := instance_.id
          originalPrice := originalAmount
          discountAmount := discount.discountAmount
          discountedMonths := appliedDiscountedMonths discount months
          mode := .renewal } with
      | .error message => .error message
      | .ok coupons => .ok { db with toCouponDb := coupons }
  | _, _ => .ok db

end PromoDb

structure RenewalResult where
  promo : PromoDb
  db : Db
  amount : Cents
  /-- absent if there is none -/
  discountAmount : Option Cents

/-- `performRenewal` with its discount resolved: the money of `performRenewal`
in `Charges`, and the usage of a coupon. -/
def performDiscountedRenewal (promo : PromoDb) (db : Db) (e : Env) (userId : ℕ)
    (inst : PricedInstance) (months : ℕ) : Except String RenewalResult :=
  let originalAmount := inst.renewalAmount months
  let instance_ := inst.discountInput userId
  let discount :=
    promo.resolveInstanceRenewalDiscount e.now instance_ originalAmount (some months)
  match performRenewal db e userId inst.id inst.toInstance months
      (promo.discounted e.now instance_ originalAmount (inst.renewalAmount_nonneg months) months) with
  | .error message => .error message
  | .ok db =>
      match promo.reserveRenewal e.now instance_ originalAmount months discount with
      | .error message => .error message
      | .ok promo =>
          .ok { promo
                db
                amount := discount.finalAmount
                discountAmount :=
                  if 0 < discount.discountAmount then some discount.discountAmount else none }

structure RenewPreview where
  months : ℕ
  amount : Cents
  discountedAmount : Cents
  expiresAt : Time
deriving DecidableEq, Repr

/-- The numbers of months that a preview offers. -/
def renewOptions : List ℕ := [1, 3, 6, 12]

/-- One line of the preview, by what a discount was resolved to for no amount. -/
def discountedPreview (discount : RenewalDiscountResolution) (amount : Cents) (months : ℕ) : Cents :=
  let discountedMonths :=
    match discount.source, discount.discountedMonths with
    | some .officialCoupon, some remaining => min months remaining
    | some _, _ => months
    | none, _ => 0
  let previewDiscountAmount :=
    if discount.source ≠ none ∧ 0 < discount.discountRate then
      calculateDiscountAmountForMonths amount months discountedMonths discount.discountRate
    else 0
  roundCurrency ((amount - previewDiscountAmount : Cents) : ℚ)

/-- The preview of `getInstanceBillingInfo`; a hosted instance is renewed by single months. -/
def PromoDb.renewPreview (db : PromoDb) (now : Time) (inst : PricedInstance)
    (isHostedInstance : Bool) : Option (List RenewPreview) :=
  if inst.isPackageInstance && inst.billingPrice.isSome then
    let discount := db.resolveInstanceRenewalDiscount now (inst.discountInput inst.userId) 0 none
    some ((renewOptions.filter fun months => !isHostedInstance || months == 1).map fun months =>
      { months
        amount := inst.renewalAmount months
        discountedAmount := discountedPreview discount (inst.renewalAmount months) months
        expiresAt := addMonths (max (inst.expiresAt.getD now) now) months })
  else none

/-! ## Preview and charge -/

section Agreement

variable {promo : PromoDb} {db db' : Db} {e : Env} {now : Time} {userId instanceId months : ℕ}
  {inst : PricedInstance} {amount : Cents} {result : RenewalResult} {balanceLogId : ℕ}

/-- Share and rest make up the amount unless the share ends on half a cent. -/
theorem discountedPrice_eq_iff (h : 0 ≤ amount) (rate : DiscountRate) :
    calculateDiscountedPrice amount rate.value
        = amount - calculateDiscountAmount amount rate.value ↔
      Int.fract ((amount : ℚ) * rate.value) ≠ 1 / 2 := by
  have h' : (0 : ℚ) ≤ amount := by exact_mod_cast h
  have hshare : 0 ≤ (amount : ℚ) * rate.value := mul_nonneg h' rate.nonneg
  have hle : (amount : ℚ) * rate.value ≤ amount := mul_le_of_le_one_right h' rate.le_one
  rw [ne_eq, ← not_congr (Rounding.halfAway_sub_self_iff hshare), ← ne_eq,
    ← Rounding.halfAway_int_sub_iff hshare hle]
  simp only [calculateDiscountedPrice, calculateDiscountAmount, roundCurrency, mul_sub, mul_one]

/-- Whether a coupon may be used does not depend on how many months are renewed,
nor on who renews. -/
theorem usableOfficialCoupon_eq (hmonths : 1 ≤ months) :
    promo.usableOfficialCoupon now (inst.discountInput userId) (some months)
      = promo.usableOfficialCoupon now (inst.discountInput inst.userId) none := by
  simp only [PromoDb.usableOfficialCoupon, PricedInstance.discountInput, Option.getD_some,
    Option.getD_none, discountedMonths_pos_iff hmonths, discountedMonths_pos_iff le_rfl,
    CouponDb.validateOfficialCoupon, CouponDb.findValidCoupon, Bool.false_and, Bool.false_eq_true,
    if_false]

/-- The preview of an AFF discount takes the rounded share off the price. -/
theorem discountedPreview_aff (h : 0 ≤ amount) (hmonths : 1 ≤ months) (affCode : AffCodeTerms)
    (s : Bool) :
    discountedPreview (applyAffDiscount 0 affCode s) amount months
      = amount - calculateDiscountAmount amount affCode.discountRate.value := by
  simp only [discountedPreview, applyAffDiscount, ne_eq, reduceCtorEq, not_false_eq_true, true_and]
  split
  · rw [discountForMonths_of_le h affCode.discountRate.nonneg hmonths le_rfl, roundCurrency_intCast]
    rfl
  · rename_i hzero
    have hrate : affCode.discountRate.value = 0 :=
      le_antisymm (not_lt.mp hzero) affCode.discountRate.nonneg
    simp [calculateDiscountAmount, hrate]

/-- The preview of a coupon is the charge with it. -/
theorem discountedPreview_official (coupon : OfficialCoupon) (rate : DiscountRate)
    (remaining : Option ℕ) :
    discountedPreview (applyOfficialCouponDiscount 0 coupon rate remaining none) amount months
      = (applyOfficialCouponDiscount amount coupon rate remaining (some months)).finalAmount := by
  have hzero (discounted : ℕ) (hrate : ¬0 < rate.value) :
      calculateDiscountAmountForMonths amount months discounted rate.value = 0 := by
    unfold calculateDiscountAmountForMonths
    simp only [not_lt.mp hrate, if_true, ite_self]
  cases remaining with
  | none =>
      simp only [discountedPreview, applyOfficialCouponDiscount, ne_eq, reduceCtorEq,
        not_false_eq_true, true_and]
      split
      · rfl
      · rename_i hrate
        rw [hzero _ hrate]
  | some remaining =>
      simp only [discountedPreview, applyOfficialCouponDiscount, ne_eq, reduceCtorEq,
        not_false_eq_true, true_and]
      split
      · rfl
      · rename_i hrate
        rw [hzero _ hrate]

/-! ### What is debited -/

theorem chargeBalance_balance
    (h : chargeBalance db userId instanceId amount = .ok (db', balanceLogId)) :
    db'.balanceOf userId = db.balanceOf userId - toUnits amount := by
  simp only [chargeBalance] at h
  split at h
  · cases h
  · rename_i user huser
    split at h
    · cases h
    · obtain ⟨rfl, -⟩ := Prod.mk.inj (Except.ok.inj h)
      simp [Db.balanceOf, Db.updateUser, huser]

/-- A renewal takes what its discount leaves from the balance of the user. -/
theorem performRenewal_balance {inst : Instance} {d : Discounted}
    (h : performRenewal db e userId instanceId inst months d = .ok db') :
    (1 ≤ months ∧ months ≤ 24) ∧
      db'.balanceOf userId = db.balanceOf userId - toUnits d.finalAmount := by
  simp only [performRenewal] at h
  split at h
  · cases h
  · split at h
    · cases h
    · rename_i hmonths
      split at h
      · cases h
      · split at h
        · cases h
        · split at h
          · cases h
          · split at h
            · cases h
            · rename_i db₁ logId hcharge
              obtain rfl := Except.ok.inj h
              refine ⟨by omega, ?_⟩
              rw [(processHostingIncome_spec _ _ _ _ _).1.balance,
                (reserveOfficialCouponUsage_spec _ _ _ _ _ _).1.balance,
                (Posting.createBillingRecord _ _).balance, (Posting.updateInstance _ _ _).balance,
                chargeBalance_balance hcharge]
              simp

/-! ### The agreement -/

/-- The AFF code that sets the price, if one does. -/
def PromoDb.appliedAff (promo : PromoDb) (now : Time) (instance_ : RenewalDiscountInstanceInput) :
    Option AffCodeTerms :=
  match promo.usableAff instance_, promo.usableOfficialCoupon now instance_ none with
  | some (affCode, true), _ => some affCode
  | some (affCode, false), none => some affCode
  | _, _ => none

/-- An AFF code sets the price, and its share ends on half a cent. -/
def PromoDb.EndsOnHalfCent (promo : PromoDb) (now : Time) (inst : PricedInstance) (months : ℕ) :
    Prop :=
  ∃ affCode, promo.appliedAff now (inst.discountInput inst.userId) = some affCode ∧
    Int.fract ((inst.renewalAmount months : ℚ) * affCode.discountRate.value) = 1 / 2

/-- What a successful renewal charges, and what the preview shows for as many months. -/
structure RenewalAgrees (promo : PromoDb) (now : Time) (inst : PricedInstance) (months : ℕ)
    (result : RenewalResult) : Prop where
  preview : ∀ isHostedInstance lines, promo.renewPreview now inst isHostedInstance = some lines →
    ∀ line ∈ lines, line.months = months → line.discountedAmount = result.amount
  total : result.discountAmount.getD 0 + result.amount = inst.renewalAmount months

/-- Preview and renewal resolve to the same source: an AFF code for both, or
something whose preview is its charge. -/
theorem resolution_cases (inst : PricedInstance) (userId : ℕ) (hmonths : 1 ≤ months) :
    let charged := promo.resolveInstanceRenewalDiscount now (inst.discountInput userId) amount
      (some months)
    let shown := promo.resolveInstanceRenewalDiscount now (inst.discountInput inst.userId) 0 none
    (∃ affCode s, promo.appliedAff now (inst.discountInput inst.userId) = some affCode ∧
      charged = applyAffDiscount amount affCode s ∧ shown = applyAffDiscount 0 affCode s) ∨
    (promo.appliedAff now (inst.discountInput inst.userId) = none ∧
      discountedPreview shown amount months = charged.finalAmount ∧
      charged.discountAmount + charged.finalAmount = amount) := by
  intro charged shown
  have haff : promo.usableAff (inst.discountInput userId)
      = promo.usableAff (inst.discountInput inst.userId) := rfl
  simp only [charged, shown, PromoDb.resolveInstanceRenewalDiscount, PromoDb.appliedAff,
    usableOfficialCoupon_eq hmonths, haff]
  rcases promo.usableAff (inst.discountInput inst.userId) with _ | ⟨affCode, _ | _⟩
  · cases promo.usableOfficialCoupon now (inst.discountInput inst.userId) none with
    | none =>
        refine .inr ⟨rfl, ?_, zero_add _⟩
        simp [discountedPreview]
    | some official =>
        refine .inr ⟨rfl, discountedPreview_official _ _ _, ?_⟩
        rw [applyOfficialCouponDiscount_final]
        exact add_sub_cancel _ _
  · cases promo.usableOfficialCoupon now (inst.discountInput inst.userId) none with
    | none => exact .inl ⟨affCode, false, rfl, rfl, rfl⟩
    | some official =>
        refine .inr ⟨rfl, discountedPreview_official _ _ _, ?_⟩
        rw [applyOfficialCouponDiscount_final]
        exact add_sub_cancel _ _
  · exact .inl ⟨affCode, true, rfl, rfl, rfl⟩

/-- What a successful renewal did. -/
theorem performDiscountedRenewal_ok
    (h : performDiscountedRenewal promo db e userId inst months = .ok result) :
    let charged := promo.resolveInstanceRenewalDiscount e.now (inst.discountInput userId)
      (inst.renewalAmount months) (some months)
    1 ≤ months ∧ result.amount = charged.finalAmount ∧
      result.discountAmount.getD 0 = max 0 charged.discountAmount ∧
      result.db.balanceOf userId = db.balanceOf userId - toUnits result.amount := by
  intro charged
  simp only [performDiscountedRenewal] at h
  split at h
  · cases h
  · rename_i db' hrenewal
    obtain ⟨⟨hmonths, -⟩, hbalance⟩ := performRenewal_balance hrenewal
    split at h
    · cases h
    · obtain rfl := Except.ok.inj h
      refine ⟨hmonths, rfl, ?_, hbalance⟩
      show Option.getD (if 0 < charged.discountAmount then some charged.discountAmount else none) 0
        = max 0 charged.discountAmount
      split
      · rename_i hpos
        exact (max_eq_right hpos.le).symm
      · rename_i hzero
        exact (max_eq_left (not_lt.mp hzero)).symm

/-- A preview line shows what the resolution without an amount makes of its price. -/
theorem renewPreview_line {isHostedInstance : Bool} {lines : List RenewPreview} {line : RenewPreview}
    (h : promo.renewPreview now inst isHostedInstance = some lines) (hline : line ∈ lines) :
    line.discountedAmount = discountedPreview
      (promo.resolveInstanceRenewalDiscount now (inst.discountInput inst.userId) 0 none)
      (inst.renewalAmount line.months) line.months := by
  simp only [PromoDb.renewPreview] at h
  split at h
  · obtain rfl := Option.some.inj h
    obtain ⟨m, -, rfl⟩ := List.mem_map.mp hline
    rfl
  · cases h

end Agreement

/-! ### A share that ends on half a cent -/

/-- 10.50 a month, with a referral code bound on purchase. -/
def referredInstance : PricedInstance where
  id := 1
  userId := 1
  hostId := 1
  status := .running
  packageId := some 1
  packagePlanId := some 1
  billingPrice := some 1050
  billingCycle := some 1

def referredDb : Db where
  users := fun _ => some { balance := toUnits 10000 }
  hosts := fun _ => some { userId := 2 }
  instances := fun _ => some referredInstance.toInstance

/-- A code of five percent, and a coupon of ten with two months, one of them used. -/
def referredPromo (affRebateEnabled : Bool) : PromoDb where
  coupons := [{ id := 1, code := "PROMO", discountRate := ⟨1 / 10, by norm_num, by norm_num⟩
                usedCount := 1, renewalMode := .limited, discountedChargeLimit := some 2 }]
  usages := if affRebateEnabled then [] else
    [{ id := 1, couponId := 1, userId := 1, instanceId := some 1, type := .purchase
       originalPrice := 1050, discountAmount := 105, createdAt := 0 }]
  packageScopes := fun _ => some .official
  affRebateEnabled
  affCodes := [{ id := 1, discountRate := ⟨1 / 20, by norm_num, by norm_num⟩ }]
  affBindings := [{ instanceId := 1, affCodeId := 1 }]

end Incudal
