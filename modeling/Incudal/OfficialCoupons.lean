/-
# `OfficialCoupons` — coupons, their rules and their usages

The rules of `lib/official-coupon-rules.ts` and the table functions of
`db/official-coupons.ts`: a coupon is validated, a usage is reserved for a
purchase or a renewal, and the usages of an instance whose creation failed are
released.  Only a purchase advances `usedCount`.

`Charges` and `Settlement` have the reservation and the release with the
outcome of the validation as an argument; here is the validation itself, with
the discounted months that each usage records.  A code stands here as
`normalizeOfficialCouponCode` leaves it, and one operation runs after another,
so the lock of a coupon is always free.
-/
import Incudal.Store
import Incudal.Lib.Keyed
import Mathlib

namespace Incudal

/-! ## Rows -/

/-- A share of a price, as the rate columns hold it. -/
structure DiscountRate where
  value : ℚ
  nonneg : 0 ≤ value := by norm_num
  le_one : value ≤ 1 := by norm_num
deriving DecidableEq

inductive OfficialCouponScope
  | all | officialOnly | hosted
deriving DecidableEq, Repr

inductive OfficialCouponRenewalMode
  | purchaseOnly | recurring | limited
deriving DecidableEq, Repr

/-- Whose package it is: an administrator's or a user's. -/
inductive PackageCouponScope
  | official | hosted
deriving DecidableEq, Repr

structure OfficialCoupon where
  id : ℕ
  code : String
  name : String := ""
  discountRate : DiscountRate
  scope : OfficialCouponScope := .all
  reusable : Bool := false
  maxUsesPerUser : Option ℕ := none
  totalUsageLimit : Option ℕ := none
  usedCount : ℕ := 0
  enabled : Bool := true
  startsAt : Option Time := none
  expiresAt : Option Time := none
  renewalMode : OfficialCouponRenewalMode := .purchaseOnly
  discountedChargeLimit : Option ℤ := none
deriving DecidableEq

/-- A row of `official_coupon_usages` with the months it was good for. -/
structure OfficialCouponUsage extends CouponUsage where
  discountedMonths : ℕ := 1
deriving DecidableEq, Repr

/-! ## The rules -/

def isCouponScopeMatched (scope : OfficialCouponScope) (packageScope : PackageCouponScope) : Bool :=
  match scope with
  | .all => true
  | .officialOnly => packageScope == .official
  | .hosted => packageScope == .hosted

/-- How often one user may use the coupon; `none` is without a limit. -/
def resolveUserUsageLimit (coupon : OfficialCoupon) : Option ℕ :=
  if !coupon.reusable then some 1 else coupon.maxUsesPerUser

/-- The months that are still discounted; `none` is without a limit. -/
def getRemainingDiscountedMonths (renewalMode : OfficialCouponRenewalMode)
    (discountedChargeLimit : Option ℤ) (discountedMonthsUsed : ℕ) : Option ℕ :=
  match renewalMode with
  | .recurring => none
  | .limited =>
      match discountedChargeLimit with
      | none => some 0
      | some limit => if limit < 1 then some 0 else some (limit - discountedMonthsUsed).toNat
  | .purchaseOnly => some 0

/-- The months of a purchase that are discounted: all of them in a mode that is
for purchases only. -/
def getDiscountedMonthsForPurchase (renewalMode : OfficialCouponRenewalMode)
    (discountedChargeLimit : Option ℤ) (purchaseMonths : ℕ) : ℕ :=
  if purchaseMonths < 1 then 0
  else if renewalMode = .purchaseOnly then purchaseMonths
  else
    match getRemainingDiscountedMonths renewalMode discountedChargeLimit 0 with
    | none => purchaseMonths
    | some remaining => min purchaseMonths remaining

def getDiscountedMonthsForRenewal (renewalMode : OfficialCouponRenewalMode)
    (discountedChargeLimit : Option ℤ) (discountedMonthsUsed requestedMonths : ℕ) : ℕ :=
  if requestedMonths < 1 then 0
  else
    match getRemainingDiscountedMonths renewalMode discountedChargeLimit discountedMonthsUsed with
    | none => requestedMonths
    | some remaining => min requestedMonths remaining

/-- The discount of a charge of which only some months are discounted. -/
def calculateDiscountAmountForMonths (originalAmount : Cents)
    (requestedMonths discountedMonths : ℕ) (discountRate : ℚ) : Cents :=
  if originalAmount ≤ 0 then 0
  else if requestedMonths < 1 then 0
  else if discountRate ≤ 0 then 0
  else
    let effectiveMonths := min requestedMonths discountedMonths
    if effectiveMonths = 0 then 0
    else
      let discountedBase := roundCurrency ((originalAmount : ℚ) * effectiveMonths / requestedMonths)
      roundCurrency (discountedBase * discountRate)

section Rules

variable {mode : OfficialCouponRenewalMode} {limit : Option ℤ} {used months : ℕ}
  {amount : Cents} {rate : ℚ}

theorem getDiscountedMonthsForRenewal_le :
    getDiscountedMonthsForRenewal mode limit used months ≤ months := by
  unfold getDiscountedMonthsForRenewal
  split
  · exact Nat.zero_le _
  · split
    · exact le_rfl
    · exact min_le_left _ _

theorem getDiscountedMonthsForPurchase_le :
    getDiscountedMonthsForPurchase mode limit months ≤ months := by
  unfold getDiscountedMonthsForPurchase
  split
  · exact Nat.zero_le _
  · split
    · exact le_rfl
    · split
      · exact le_rfl
      · exact min_le_left _ _

/-- Some months are discounted or none, whatever their number. -/
theorem discountedMonths_pos_iff (hmonths : 1 ≤ months) :
    0 < getDiscountedMonthsForRenewal mode limit used months ↔
      getRemainingDiscountedMonths mode limit used ≠ some 0 := by
  unfold getDiscountedMonthsForRenewal
  rw [if_neg (by omega)]
  cases getRemainingDiscountedMonths mode limit used with
  | none => simp; omega
  | some remaining => simp; omega

/-- The months left in the limited mode keep to the limit. -/
theorem remaining_months_le {bound : ℤ} (hused : (used : ℤ) ≤ bound) :
    ∃ remaining, getRemainingDiscountedMonths .limited (some bound) used = some remaining ∧
      (used + remaining : ℤ) ≤ bound := by
  unfold getRemainingDiscountedMonths
  dsimp only
  split
  · exact ⟨0, rfl, by simpa using hused⟩
  · exact ⟨_, rfl, by omega⟩

/-- A renewal in the limited mode keeps to the limit. -/
theorem renewal_months_le {bound : ℤ} (hused : (used : ℤ) ≤ bound) :
    (used + getDiscountedMonthsForRenewal .limited (some bound) used months : ℤ) ≤ bound := by
  obtain ⟨remaining, hremaining, hle⟩ := remaining_months_le hused
  unfold getDiscountedMonthsForRenewal
  split
  · simpa using hused
  · rw [hremaining]
    dsimp only
    have := min_le_right months remaining
    omega

/-- And so does a purchase. -/
theorem purchase_months_le {bound : ℤ} (hbound : 0 ≤ bound) :
    (getDiscountedMonthsForPurchase .limited (some bound) months : ℤ) ≤ bound := by
  have hused : ((0 : ℕ) : ℤ) ≤ bound := hbound
  obtain ⟨remaining, hremaining, hle⟩ := remaining_months_le hused
  unfold getDiscountedMonthsForPurchase
  split
  · exact hbound
  · rw [if_neg (by decide), hremaining]
    dsimp only
    have := min_le_right months remaining
    omega

theorem roundCurrency_le_of_le {value : ℚ} (h0 : 0 ≤ amount) (h : value ≤ amount) :
    roundCurrency value ≤ amount := Rounding.halfAway_le_of_le h0 h

/-- The discounted share of an amount is not negative and not above it. -/
theorem discountedBase_bounds (hamount : 0 ≤ amount) (effectiveMonths : ℕ)
    (h : effectiveMonths ≤ months) :
    0 ≤ roundCurrency ((amount : ℚ) * effectiveMonths / months) ∧
      roundCurrency ((amount : ℚ) * effectiveMonths / months) ≤ amount := by
  have hamount' : (0 : ℚ) ≤ amount := by exact_mod_cast hamount
  have heff : (effectiveMonths : ℚ) ≤ months := by exact_mod_cast h
  have hmonths : (0 : ℚ) ≤ months := Nat.cast_nonneg _
  refine ⟨roundCurrency_nonneg (by positivity), roundCurrency_le_of_le hamount ?_⟩
  exact div_le_of_le_mul₀ hmonths hamount' (mul_le_mul_of_nonneg_left heff hamount')

/-- The discount is not negative and not above the amount. -/
theorem discountForMonths_bounds (hamount : 0 ≤ amount) (hrate : rate ≤ 1) (discounted : ℕ) :
    0 ≤ calculateDiscountAmountForMonths amount months discounted rate ∧
      calculateDiscountAmountForMonths amount months discounted rate ≤ amount := by
  unfold calculateDiscountAmountForMonths
  split
  · exact ⟨le_rfl, hamount⟩
  · split
    · exact ⟨le_rfl, hamount⟩
    · split
      · exact ⟨le_rfl, hamount⟩
      · rename_i hpos
        simp only
        split
        · exact ⟨le_rfl, hamount⟩
        · obtain ⟨h0, hle⟩ := discountedBase_bounds hamount (min months discounted)
            (min_le_left months discounted)
          have h0' : (0 : ℚ) ≤
              roundCurrency ((amount : ℚ) * (min months discounted : ℕ) / months) := by
            exact_mod_cast h0
          push Not at hpos
          refine ⟨roundCurrency_nonneg (mul_nonneg h0' hpos.le),
            (roundCurrency_le_of_le h0 ?_).trans hle⟩
          exact mul_le_of_le_one_right h0' hrate

/-- With all months discounted it is the plain discount. -/
theorem discountForMonths_of_le (hamount : 0 ≤ amount) (hrate : 0 ≤ rate) (hmonths : 1 ≤ months)
    {discounted : ℕ} (h : months ≤ discounted) :
    calculateDiscountAmountForMonths amount months discounted rate
      = roundCurrency (amount * rate) := by
  unfold calculateDiscountAmountForMonths
  have hne : (months : ℚ) ≠ 0 := by
    have : months ≠ 0 := by omega
    exact_mod_cast this
  split
  · rename_i hle
    obtain rfl : amount = 0 := le_antisymm hle hamount
    simp
  · rw [if_neg (by omega)]
    split
    · rename_i hle
      obtain rfl : rate = 0 := le_antisymm hle hrate
      simp
    · simp only [min_eq_left h]
      rw [if_neg (by omega), mul_div_cancel_right₀ _ hne, roundCurrency_intCast]

end Rules

/-! ## The tables -/

structure CouponDb where
  coupons : List OfficialCoupon := []
  usages : List OfficialCouponUsage := []
  /-- `getPackageCouponScope`, by the role of the package's owner -/
  packageScopes : ℕ → Option PackageCouponScope := fun _ => none
  nextUsageId : ℕ := 1

inductive CouponErrorCode
  | couponNotFound | couponDisabled | couponNotStarted | couponExpired | notFound
  | couponScopeMismatch | couponExhausted | couponUserLimitReached
deriving DecidableEq, Repr

/-- The code and the text of an error, as a failed reservation throws them. -/
def CouponErrorCode.thrown : CouponErrorCode → String
  | .couponNotFound => "COUPON_NOT_FOUND: Official coupon not found"
  | .couponDisabled => "COUPON_DISABLED: This official coupon has been disabled"
  | .couponNotStarted => "COUPON_NOT_STARTED: This official coupon is not active yet"
  | .couponExpired => "COUPON_EXPIRED: This official coupon has expired"
  | .notFound => "NOT_FOUND: Package not found"
  | .couponScopeMismatch =>
      "COUPON_SCOPE_MISMATCH: This official coupon does not apply to the selected package"
  | .couponExhausted => "COUPON_EXHAUSTED: This official coupon has reached its total usage limit"
  | .couponUserLimitReached =>
      "COUPON_USER_LIMIT_REACHED: You have reached the usage limit for this official coupon"

structure CouponValidationRequest where
  code : String
  packageId : ℕ
  userId : ℕ
  checkUserLimit : Bool := true
  checkTotalUsageLimit : Bool := true
  allowExpired : Bool := false
deriving DecidableEq, Repr

structure CouponValidation where
  coupon : OfficialCoupon
  remainingUses : Option ℕ
deriving DecidableEq

/-- What a usage is reserved with. -/
structure UsageReservation where
  code : String
  packageId : ℕ
  userId : ℕ
  instanceId : ℕ
  originalPrice : Cents
  discountAmount : Cents
  discountedMonths : ℕ
  mode : CouponUsageType := .purchase
deriving DecidableEq, Repr

/-- One more redemption of the coupon. -/
def OfficialCoupon.redeemed (coupon : OfficialCoupon) : OfficialCoupon :=
  { coupon with usedCount := coupon.usedCount + 1 }

def OfficialCouponUsage.isPurchaseOf (couponId : ℕ) (usage : OfficialCouponUsage) : Bool :=
  usage.couponId == couponId && usage.type == .purchase

/-- The limits that the administrator's form demands. -/
def OfficialCoupon.isIssuable (coupon : OfficialCoupon) : Bool :=
  coupon.usedCount == 0 && coupon.code != ""
    && (coupon.renewalMode != .limited || coupon.discountedChargeLimit.any (1 ≤ ·))

namespace CouponDb

variable (db : CouponDb)

/-- `createOfficialCoupon`. -/
def createOfficialCoupon (coupon : OfficialCoupon) : Option CouponDb :=
  if coupon.isIssuable
      && db.coupons.all (fun other => other.id != coupon.id && other.code != coupon.code) then
    some { db with coupons := db.coupons ++ [coupon] }
  else none

/-- The usages of the coupon by the user, of purchases and of renewals. -/
def userUsageCount (couponId userId : ℕ) : ℕ :=
  db.usages.countP fun usage => usage.couponId == couponId && usage.userId == userId

/-- The checks of a validation that do not ask who the user is. -/
def findValidCoupon (now : Time) (request : CouponValidationRequest) :
    Except CouponErrorCode OfficialCoupon :=
  if request.code = "" then .error .couponNotFound
  else
    match Keyed.lookup OfficialCoupon.code request.code db.coupons with
    | none => .error .couponNotFound
    | some coupon =>
        if !coupon.enabled then .error .couponDisabled
        else if coupon.startsAt.any (now < ·) then .error .couponNotStarted
        else if !request.allowExpired && coupon.expiresAt.any (· ≤ now) then .error .couponExpired
        else
          match db.packageScopes request.packageId with
          | none => .error .notFound
          | some packageScope =>
              if !isCouponScopeMatched coupon.scope packageScope then .error .couponScopeMismatch
              else if request.checkTotalUsageLimit
                  && coupon.totalUsageLimit.any (· ≤ coupon.usedCount) then .error .couponExhausted
              else .ok coupon

/-- `validateOfficialCoupon`: the limit per user comes last. -/
def validateOfficialCoupon (now : Time) (request : CouponValidationRequest) :
    Except CouponErrorCode CouponValidation :=
  match db.findValidCoupon now request with
  | .error code => .error code
  | .ok coupon =>
      if request.checkUserLimit && (resolveUserUsageLimit coupon).any
          (· ≤ db.userUsageCount coupon.id request.userId) then
        .error .couponUserLimitReached
      else
        .ok { coupon
              remainingUses := coupon.totalUsageLimit.map (· - coupon.usedCount) }

/-- `reserveOfficialCouponUsage`: the coupon is validated again; a purchase takes
one of its redemptions. -/
def reserveOfficialCouponUsage (now : Time) (params : UsageReservation) : Except String CouponDb :=
  if params.discountedMonths < 1 then
    .error "Official coupon usage must contain at least one discounted month"
  else
    match Keyed.lookup OfficialCoupon.code params.code db.coupons with
    | none => .error CouponErrorCode.couponNotFound.thrown
    | some coupon =>
        let isRenewal := params.mode == .renewal
        match db.validateOfficialCoupon now
          { code := params.code
            packageId := params.packageId
            userId := params.userId
            checkUserLimit := !isRenewal
            checkTotalUsageLimit := !isRenewal
            allowExpired := isRenewal } with
        | .error code => .error code.thrown
        | .ok _ =>
            let usage : OfficialCouponUsage :=
              { id := db.nextUsageId
                couponId := coupon.id
                userId := params.userId
                instanceId := some params.instanceId
                type := params.mode
                originalPrice := params.originalPrice
                discountAmount := params.discountAmount
                createdAt := now
                discountedMonths := params.discountedMonths }
            if isRenewal then
              .ok { db with
                usages := db.usages ++ [usage]
                nextUsageId := db.nextUsageId + 1 }
            else if coupon.enabled && coupon.totalUsageLimit.all (coupon.usedCount < ·) then
              .ok { db with
                coupons := Keyed.modify OfficialCoupon.id coupon.id OfficialCoupon.redeemed db.coupons
                usages := db.usages ++ [usage]
                nextUsageId := db.nextUsageId + 1 }
            else .error CouponErrorCode.couponExhausted.thrown

/-- `getInstancePurchaseCoupon`: the coupon that the instance was bought with. -/
def getInstancePurchaseCoupon (instanceId : ℕ) : Option OfficialCoupon :=
  match db.usages.find? fun usage =>
    usage.instanceId == some instanceId && usage.type == .purchase with
  | none => none
  | some usage => Keyed.lookup OfficialCoupon.id usage.couponId db.coupons

/-- `countDiscountedMonthsForInstance`, of purchase and renewals together. -/
def countDiscountedMonthsForInstance (couponId instanceId : ℕ) : ℕ :=
  ((db.usages.filter fun usage =>
    usage.couponId == couponId && usage.instanceId == some instanceId).map
      OfficialCouponUsage.discountedMonths).sum

/-- The usages of an instance. -/
def usagesOf (instanceId : ℕ) : List OfficialCouponUsage :=
  db.usages.filter fun usage => usage.instanceId == some instanceId

/-- Whether a coupon was redeemed so often. -/
def hasRedemptions (couponId usageCount : ℕ) : Bool :=
  (Keyed.lookup OfficialCoupon.id couponId db.coupons).any (usageCount ≤ ·.usedCount)

/-- `releaseOfficialCouponUsageByInstance`: the usages go, and each coupon gets
its purchases among them back; with it what the usages had taken off. -/
def releaseOfficialCouponUsageByInstance (instanceId : ℕ) :
    Except String (CouponDb × Option Cents) :=
  let usages := db.usagesOf instanceId
  if usages = [] then .ok (db, none)
  else
    let usageCount (couponId : ℕ) := usages.countP (·.isPurchaseOf couponId)
    match usages.find? fun usage => usage.type == .purchase
        && !db.hasRedemptions usage.couponId (usageCount usage.couponId) with
    | some usage => .error s!"Official coupon {usage.couponId} usage count is inconsistent"
    | none =>
        .ok ({ db with
                coupons := db.coupons.map fun coupon =>
                  { coupon with usedCount := coupon.usedCount - usageCount coupon.id }
                usages := db.usages.filter fun usage => usage.instanceId != some instanceId },
          some (usages.map (·.discountAmount)).sum)

end CouponDb

/-! ## What the table functions do -/

section Specs

variable {db db' : CouponDb} {now : Time} {request : CouponValidationRequest}
  {params : UsageReservation} {instanceId : ℕ} {released : Option Cents}

/-- The row that a reservation writes. -/
def UsageReservation.usage (params : UsageReservation) (id couponId : ℕ) (now : Time) :
    OfficialCouponUsage :=
  { id, couponId, userId := params.userId, instanceId := some params.instanceId
    type := params.mode, originalPrice := params.originalPrice
    discountAmount := params.discountAmount, createdAt := now
    discountedMonths := params.discountedMonths }

/-- A coupon passes the checks if it is that of the code, enabled, and has
redemptions left where they are asked for; none of them is about the user. -/
theorem findValidCoupon_spec {found : Except CouponErrorCode OfficialCoupon}
    (h : db.findValidCoupon now request = found) :
    match found with
    | .ok coupon =>
        Keyed.lookup OfficialCoupon.code request.code db.coupons = some coupon ∧
          (request.checkTotalUsageLimit = true →
            coupon.totalUsageLimit.all (coupon.usedCount < ·) = true)
    | .error code => code ≠ .couponUserLimitReached := by
  simp only [CouponDb.findValidCoupon] at h
  split at h
  · subst h
    rintro ⟨⟩
  · split at h
    · subst h
      rintro ⟨⟩
    · rename_i coupon hcoupon
      split at h
      · subst h
        rintro ⟨⟩
      · split at h
        · subst h
          rintro ⟨⟩
        · split at h
          · subst h
            rintro ⟨⟩
          · split at h
            · subst h
              rintro ⟨⟩
            · split at h
              · subst h
                rintro ⟨⟩
              · split at h
                · subst h
                  rintro ⟨⟩
                · rename_i hexhausted
                  subst h
                  refine ⟨hcoupon, fun hcheck => ?_⟩
                  cases hlimit : coupon.totalUsageLimit with
                  | none => rfl
                  | some limit => simpa [hcheck, hlimit] using hexhausted

theorem validate_ok {result : CouponValidation}
    (h : db.validateOfficialCoupon now request = .ok result) :
    db.findValidCoupon now request = .ok result.coupon ∧
      Keyed.lookup OfficialCoupon.code request.code db.coupons = some result.coupon := by
  simp only [CouponDb.validateOfficialCoupon] at h
  split at h
  · cases h
  · rename_i coupon hfound
    split at h
    · cases h
    · obtain rfl := Except.ok.inj h
      exact ⟨hfound, (findValidCoupon_spec hfound).1⟩

/-- Whom the limit per user turns away. -/
theorem validate_userLimit
    (h : db.validateOfficialCoupon now request = .error .couponUserLimitReached) :
    ∃ coupon limit, Keyed.lookup OfficialCoupon.code request.code db.coupons = some coupon ∧
      resolveUserUsageLimit coupon = some limit ∧
      limit ≤ db.userUsageCount coupon.id request.userId := by
  simp only [CouponDb.validateOfficialCoupon] at h
  split at h
  · rename_i code hfound
    obtain rfl := Except.error.inj h
    exact absurd rfl (findValidCoupon_spec hfound)
  · rename_i coupon hfound
    split at h
    · rename_i hreached
      simp only [Bool.and_eq_true] at hreached
      cases hlimit : resolveUserUsageLimit coupon with
      | none => simp [hlimit] at hreached
      | some limit =>
          refine ⟨coupon, limit, (findValidCoupon_spec hfound).1, hlimit, ?_⟩
          simpa [hlimit] using hreached.2
    · cases h

/-- What a reservation writes: one usage, and for a purchase one redemption of a
coupon that had one left. -/
structure Reserved (db db' : CouponDb) (now : Time) (params : UsageReservation)
    (coupon : OfficialCoupon) : Prop where
  months : 1 ≤ params.discountedMonths
  coupon_eq : Keyed.lookup OfficialCoupon.code params.code db.coupons = some coupon
  left : params.mode = .purchase → coupon.totalUsageLimit.all (coupon.usedCount < ·) = true
  coupons : db'.coupons =
    if params.mode = .renewal then db.coupons
    else Keyed.modify OfficialCoupon.id coupon.id OfficialCoupon.redeemed db.coupons
  usages : db'.usages = db.usages ++ [params.usage db.nextUsageId coupon.id now]
  packageScopes : db'.packageScopes = db.packageScopes
  nextUsageId : db'.nextUsageId = db.nextUsageId + 1

theorem reserveUsage_spec (h : db.reserveOfficialCouponUsage now params = .ok db') :
    ∃ coupon, Reserved db db' now params coupon := by
  simp only [CouponDb.reserveOfficialCouponUsage] at h
  split at h
  · cases h
  · rename_i hmonths
    split at h
    · cases h
    · rename_i coupon hcoupon
      split at h
      · cases h
      · rename_i validation hvalid
        split at h
        · rename_i hrenewal
          simp only [beq_iff_eq] at hrenewal
          obtain rfl := Except.ok.inj h
          exact ⟨coupon, by omega, hcoupon, by simp [hrenewal], by simp [hrenewal], rfl, rfl, rfl⟩
        · rename_i hpurchase
          simp only [beq_iff_eq] at hpurchase
          split at h
          · rename_i hleft
            simp only [Bool.and_eq_true] at hleft
            obtain rfl := Except.ok.inj h
            exact ⟨coupon, by omega, hcoupon, fun _ => hleft.2, by simp [hpurchase], rfl, rfl, rfl⟩
          · cases h

/-- What a release leaves: without usages of the instance there is nothing to
do, else they go and their purchases are given back. -/
theorem releaseUsages_spec (h : db.releaseOfficialCouponUsageByInstance instanceId = .ok (db', released)) :
    (db.usagesOf instanceId = [] ∧ db' = db) ∨
      db' = { db with
        coupons := db.coupons.map fun coupon =>
          { coupon with
            usedCount := coupon.usedCount
              - (db.usagesOf instanceId).countP (·.isPurchaseOf coupon.id) }
        usages := db.usages.filter fun usage => usage.instanceId != some instanceId } := by
  simp only [CouponDb.releaseOfficialCouponUsageByInstance] at h
  split at h
  · rename_i hnone
    obtain ⟨rfl, rfl⟩ := Prod.mk.inj (Except.ok.inj h)
    exact .inl ⟨hnone, rfl⟩
  · split at h
    · cases h
    · obtain ⟨rfl, rfl⟩ := Prod.mk.inj (Except.ok.inj h)
      exact .inr rfl

end Specs

end Incudal
