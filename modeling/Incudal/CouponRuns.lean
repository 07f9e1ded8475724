/-
# `CouponRuns` — redemptions, renewals and releases of coupons

The coupon tables over whole runs: coupons are issued and validated, instances
are bought with them, come up or fail and are bought again, and are renewed.
What else happens to an instance row, to the AFF tables or to the owner of a
package is an event that may change it as it likes.

To what the table functions keep by themselves (`CouponDb.Kept`), `CouponInv`
adds what the instances are for: only an instance whose creation has not failed
has usages, one of them from its purchase, so a release gives back exactly that
one.

The limit per user is meant for purchases, but its check counts renewals too.
`coupons_kept` is about the runs in which no validation finds the renewals of
the user making the difference; `renewal_uses_up_limit` is a run in which they
do.
-/
import Incudal.RenewalPricing
import Incudal.CouponTables
import Incudal.Lib.Machine
import Mathlib

namespace Incudal

/-! ## The world -/

/-- What a purchase or renewal charged. -/
structure CouponCharge where
  instanceId : ℕ
  months : ℕ
  originalAmount : Cents
  discountAmount : Cents
  finalAmount : Cents
  discountRate : ℚ
  source : Option RenewalDiscountSource
  usageId : Option ℕ
deriving DecidableEq, Repr

/-- A validation that the limit per user turned away, with the purchases the user
had made with the coupon. -/
structure UserLimitRefusal where
  couponId : ℕ
  userId : ℕ
  limit : ℕ
  purchases : ℕ
deriving DecidableEq, Repr

structure CouponWorld where
  now : Time
  promo : PromoDb := {}
  instances : List PricedInstance := []
  /-- newest first -/
  charges : List CouponCharge := []
  refusals : List UserLimitRefusal := []

/-- Neither under construction nor failed. -/
def InstanceStatus.isUp (status : InstanceStatus) : Bool :=
  status != .creating && status != .error

namespace CouponDb

/-- The purchases of the user with the coupon. -/
def userPurchaseCount (db : CouponDb) (couponId userId : ℕ) : ℕ :=
  db.usages.countP fun usage => usage.isPurchaseOf couponId && usage.userId == userId

/-- Renewals make the difference for the user: the purchases are below the limit,
all usages are not. -/
def renewalsFillLimit (db : CouponDb) (code : String) (userId : ℕ) : Bool :=
  (Keyed.lookup OfficialCoupon.code code db.coupons).any fun coupon =>
    (resolveUserUsageLimit coupon).any fun limit =>
      db.userPurchaseCount coupon.id userId < limit && limit ≤ db.userUsageCount coupon.id userId

end CouponDb

namespace PricedInstance

def withStatus (status : InstanceStatus) (inst : PricedInstance) : PricedInstance :=
  { inst with status }

def afterRenewal (newExpiresAt : Time) (inst : PricedInstance) : PricedInstance :=
  { inst with toInstance := inst.toInstance.renewed newExpiresAt }

/-- The price of a purchase. -/
def purchasePrice (inst : PricedInstance) : Cents := inst.billingPrice.getD 0

end PricedInstance

namespace CouponWorld

variable (w : CouponWorld)

/-- What the limit per user says to a validation. -/
def userLimitRefusal (request : CouponValidationRequest) : Option UserLimitRefusal :=
  match w.promo.validateOfficialCoupon w.now request,
      Keyed.lookup OfficialCoupon.code request.code w.promo.coupons with
  | .error .couponUserLimitReached, some coupon =>
      some { couponId := coupon.id
             userId := request.userId
             limit := (resolveUserUsageLimit coupon).getD 0
             purchases := w.promo.userPurchaseCount coupon.id request.userId }
  | _, _ => none

/-- The validation is answered. -/
def answer (request : CouponValidationRequest) : CouponWorld :=
  { w with refusals := (w.userLimitRefusal request).toList ++ w.refusals }

/-- The validation of a code for a purchase of the instance. -/
def purchaseRequest (inst : PricedInstance) (code : String) : CouponValidationRequest :=
  { code
    packageId := inst.packageId.getD 0
    userId := inst.userId }

/-- A charge without a coupon, by an AFF code if one was found. -/
def plainCharge (inst : PricedInstance) (months : ℕ) (affRate : Option DiscountRate) :
    CouponCharge :=
  let rate : ℚ := (affRate.map DiscountRate.value).getD 0
  let discountAmount := calculateDiscountAmount inst.purchasePrice rate
  { instanceId := inst.id
    months
    originalAmount := inst.purchasePrice
    discountAmount
    finalAmount := inst.purchasePrice - discountAmount
    discountRate := rate
    source := affRate.map fun _ => .aff
    usageId := none }

/-- The validation of the code of a purchase, if it has one, is answered. -/
def answerPurchase (inst : PricedInstance) (code : Option String) : CouponWorld :=
  match code with
  | none => w
  | some code => w.answer (purchaseRequest inst code)

def addInstance (inst : PricedInstance) : CouponWorld :=
  { w with instances := w.instances ++ [inst] }

def updateInstance (instanceId : ℕ) (f : PricedInstance → PricedInstance) : CouponWorld :=
  { w with instances := Keyed.modify PricedInstance.id instanceId f w.instances }

/-- The charge of a purchase with a valid coupon, and its redemption. -/
def redeem (inst : PricedInstance) (months : ℕ) (validation : CouponValidation) :
    Option CouponWorld :=
  let discountedMonths := getDiscountedMonthsForPurchase validation.coupon.renewalMode
    validation.coupon.discountedChargeLimit months
  let discountAmount := calculateDiscountAmountForMonths inst.purchasePrice months discountedMonths
    validation.coupon.discountRate.value
  match w.promo.reserveOfficialCouponUsage w.now
      { code := validation.coupon.code
        packageId := inst.packageId.getD 0
        userId := inst.userId
        instanceId := inst.id
        originalPrice := inst.purchasePrice
        discountAmount
        discountedMonths } with
  | .error _ => none
  | .ok coupons =>
      some { w with
        promo := { w.promo with toCouponDb := coupons }
        charges :=
          { instanceId := inst.id
            months
            originalAmount := inst.purchasePrice
            discountAmount
            finalAmount := inst.purchasePrice - discountAmount
            discountRate := validation.coupon.discountRate.value
            source := some .officialCoupon
            usageId := some w.promo.nextUsageId } :: w.charges }

/-- The code of a new purchase is a coupon's, or an AFF code with its rate, or it is refused. -/
def payPurchase (inst : PricedInstance) (code : Option String) (affRate : Option DiscountRate) :
    Option CouponWorld :=
  let months := inst.billingCycle.getD 1
  match code with
  | none => some { w with charges := plainCharge inst months none :: w.charges }
  | some code =>
      match w.promo.validateOfficialCoupon w.now (purchaseRequest inst code) with
      | .ok validation => w.redeem inst months validation
      | .error .couponNotFound =>
          affRate.map fun rate =>
            { w with charges := plainCharge inst months (some rate) :: w.charges }
      | .error _ => none

/-- A repeated purchase does without a coupon that is no longer valid. -/
def payRetry (inst : PricedInstance) (code : Option String) (affRate : Option DiscountRate) :
    Option CouponWorld :=
  let months := max 1 (inst.billingCycle.getD 1)
  let plain := some { w with charges := plainCharge inst months affRate :: w.charges }
  match code with
  | none => plain
  | some code =>
      match w.promo.validateOfficialCoupon w.now (purchaseRequest inst code) with
      | .ok validation =>
          if 0 < getDiscountedMonthsForPurchase validation.coupon.renewalMode
              validation.coupon.discountedChargeLimit months then
            w.redeem inst months validation
          else plain
      | .error _ => plain

/-- The renewal of an instance: price, discount and usage. -/
def renew (inst : PricedInstance) (months : ℕ) : Option CouponWorld :=
  if !inst.isPackageInstance || months < 1 || 24 < months || !inst.isRenewable then none
  else
    let instance_ := inst.discountInput inst.userId
    let originalAmount := inst.renewalAmount months
    let discount :=
      w.promo.resolveInstanceRenewalDiscount w.now instance_ originalAmount (some months)
    match w.promo.reserveRenewal w.now instance_ originalAmount months discount with
    | .error _ => none
    | .ok promo =>
        let newExpiresAt := addMonths (max (inst.expiresAt.getD w.now) w.now) months
        some { w.updateInstance inst.id (·.afterRenewal newExpiresAt) with
          promo
          charges :=
            { instanceId := inst.id
              months
              originalAmount
              discountAmount := discount.discountAmount
              finalAmount := discount.finalAmount
              discountRate := discount.discountRate
              source := discount.source
              usageId := discount.officialCoupon.map fun _ => w.promo.nextUsageId } :: w.charges }

end CouponWorld

inductive CouponEvent
  | advance (now : Time)
  | createCoupon (coupon : OfficialCoupon)
  | setPackageScope (packageId : ℕ) (scope : Option PackageCouponScope)
  | setAff (affRebateEnabled : Bool) (affCodes : List AffCodeTerms) (affBindings : List AffBinding)
  /-- a user asks whether a code is valid -/
  | validate (code : String) (packageId userId : ℕ)
  | purchase (inst : PricedInstance) (code : Option String) (affRate : Option DiscountRate)
  | provisioned (instanceId : ℕ)
  | failPurchase (instanceId : ℕ)
  | retryPurchase (instanceId : ℕ) (code : Option String) (affRate : Option DiscountRate)
  | renew (instanceId months : ℕ)
  /-- anything else that happens to an instance that is up -/
  | rewrite (inst : PricedInstance)
deriving DecidableEq

def couponStep (w : CouponWorld) : CouponEvent → Option CouponWorld
  | .advance now => if w.now ≤ now then some { w with now } else none
  | .createCoupon coupon =>
      (w.promo.createOfficialCoupon coupon).map fun coupons =>
        { w with promo := { w.promo with toCouponDb := coupons } }
  | .setPackageScope packageId scope =>
      let packageScopes := Function.update w.promo.packageScopes packageId scope
      some { w with promo := { w.promo with packageScopes } }
  | .setAff affRebateEnabled affCodes affBindings =>
      some { w with promo := { w.promo with affRebateEnabled, affCodes, affBindings } }
  | .validate code packageId userId => some (w.answer { code, packageId, userId })
  | .purchase inst code affRate =>
      if w.instances.all (·.id != inst.id) && inst.status == .creating then
        let answered := w.answerPurchase inst code
        some (((answered.addInstance inst).payPurchase inst code affRate).getD answered)
      else none
  | .provisioned instanceId =>
      match Keyed.lookup PricedInstance.id instanceId w.instances with
      | none => none
      | some inst =>
          if inst.status = .creating then
            some (w.updateInstance instanceId (PricedInstance.withStatus .running))
          else none
  | .failPurchase instanceId =>
      match Keyed.lookup PricedInstance.id instanceId w.instances with
      | none => none
      | some inst =>
          if inst.status = .creating then
            match w.promo.releaseOfficialCouponUsageByInstance instanceId with
            | .error _ => none
            | .ok (coupons, _) =>
                some { w.updateInstance instanceId (PricedInstance.withStatus .error) with
                  promo := { w.promo with toCouponDb := coupons } }
          else none
  | .retryPurchase instanceId code affRate =>
      match Keyed.lookup PricedInstance.id instanceId w.instances with
      | none => none
      | some inst =>
          if inst.status = .error then
            let answered := w.answerPurchase inst code
            let claimed := answered.updateInstance instanceId (PricedInstance.withStatus .creating)
            some ((claimed.payRetry inst code affRate).getD answered)
          else none
  | .renew instanceId months =>
      match Keyed.lookup PricedInstance.id instanceId w.instances with
      | none => none
      | some inst => w.renew inst months
  | .rewrite inst =>
      match Keyed.lookup PricedInstance.id inst.id w.instances with
      | none => none
      | some current =>
          if current.status.isUp && inst.status.isUp then
            some (w.updateInstance inst.id fun _ => inst)
          else none

/-! ## What one step can do -/

/-- The status of an instance that there is. -/
def CouponWorld.statusOf (w : CouponWorld) (instanceId : ℕ) : Option InstanceStatus :=
  (Keyed.lookup PricedInstance.id instanceId w.instances).map fun inst => inst.status

/-- A charge with a coupon and the usage that it reserves: the discount is that of
the months which the usage records. -/
structure CouponCharge.ChargedWith (charge : CouponCharge) (params : UsageReservation)
    (usageId : ℕ) : Prop where
  usageId : charge.usageId = some usageId
  instanceId : charge.instanceId = params.instanceId
  originalAmount : charge.originalAmount = params.originalPrice
  discountAmount : charge.discountAmount = params.discountAmount
  discount : charge.discountAmount = calculateDiscountAmountForMonths charge.originalAmount
    charge.months params.discountedMonths charge.discountRate
  finalAmount : charge.finalAmount = charge.originalAmount - charge.discountAmount
  months : params.discountedMonths ≤ charge.months
  source : charge.source = some .officialCoupon

/-- What a step does to coupons, usages, statuses and charges. -/
inductive CouponChange (w w' : CouponWorld) : Prop
  /-- none of them changes -/
  | quiet (htables : w.promo.SameTables w'.promo.toCouponDb)
      (hstatus : w'.statusOf = w.statusOf) (hcharges : w'.charges = w.charges)
  /-- a coupon is issued -/
  | issued (coupon : OfficialCoupon)
      (hcreate : w.promo.createOfficialCoupon coupon = some w'.promo.toCouponDb)
      (hstatus : w'.statusOf = w.statusOf) (hcharges : w'.charges = w.charges)
  /-- an instance is bought, or bought again, without a coupon -/
  | bought (instanceId : ℕ) (charge : CouponCharge)
      (hbefore : w.statusOf instanceId = none ∨ w.statusOf instanceId = some .error)
      (htables : w.promo.SameTables w'.promo.toCouponDb)
      (hstatus : w'.statusOf = Function.update w.statusOf instanceId (some .creating))
      (hcharges : w'.charges = charge :: w.charges) (husage : charge.usageId = none)
  /-- an instance is bought, or bought again, with a coupon -/
  | redeemed (params : UsageReservation) (coupon : OfficialCoupon) (charge : CouponCharge)
      (hbefore : w.statusOf params.instanceId = none ∨ w.statusOf params.instanceId = some .error)
      (hreserved : Reserved w.promo.toCouponDb w'.promo.toCouponDb w.now params coupon)
      (hmode : params.mode = .purchase)
      (hmonths : params.discountedMonths = getDiscountedMonthsForPurchase coupon.renewalMode
        coupon.discountedChargeLimit charge.months)
      (hstatus : w'.statusOf = Function.update w.statusOf params.instanceId (some .creating))
      (hcharges : w'.charges = charge :: w.charges)
      (hcharge : charge.ChargedWith params w.promo.nextUsageId)
  /-- an instance that has not failed is up -/
  | moved (instanceId : ℕ) (s s' : InstanceStatus) (hs : s ≠ .error) (hs' : s'.isUp = true)
      (hbefore : w.statusOf instanceId = some s)
      (htables : w.promo.SameTables w'.promo.toCouponDb)
      (hstatus : w'.statusOf = Function.update w.statusOf instanceId (some s'))
      (hcharges : w'.charges = w.charges)
  /-- the creation of an instance has failed -/
  | released (instanceId : ℕ) (discount : Option Cents)
      (hbefore : w.statusOf instanceId = some .creating)
      (hrelease : w.promo.releaseOfficialCouponUsageByInstance instanceId
        = .ok (w'.promo.toCouponDb, discount))
      (hstatus : w'.statusOf = Function.update w.statusOf instanceId (some .error))
      (hcharges : w'.charges = w.charges)
  /-- an instance is renewed without a coupon -/
  | renewed (instanceId : ℕ) (s s' : InstanceStatus) (charge : CouponCharge)
      (hs : s.isUp = true) (hs' : s'.isUp = true) (hbefore : w.statusOf instanceId = some s)
      (htables : w.promo.SameTables w'.promo.toCouponDb)
      (hstatus : w'.statusOf = Function.update w.statusOf instanceId (some s'))
      (hcharges : w'.charges = charge :: w.charges) (husage : charge.usageId = none)
  /-- an instance is renewed with the coupon it was bought with -/
  | continued (params : UsageReservation) (coupon bound : OfficialCoupon) (s s' : InstanceStatus)
      (charge : CouponCharge) (hs : s.isUp = true) (hs' : s'.isUp = true)
      (hbefore : w.statusOf params.instanceId = some s)
      (hbound : bound ∈ w.promo.coupons) (hcode : params.code = bound.code)
      (hreserved : Reserved w.promo.toCouponDb w'.promo.toCouponDb w.now params coupon)
      (hmode : params.mode = .renewal)
      (hmonths : params.discountedMonths = getDiscountedMonthsForRenewal bound.renewalMode
        bound.discountedChargeLimit
        (w.promo.countDiscountedMonthsForInstance bound.id params.instanceId) charge.months)
      (hstatus : w'.statusOf = Function.update w.statusOf params.instanceId (some s'))
      (hcharges : w'.charges = charge :: w.charges)
      (hcharge : charge.ChargedWith params w.promo.nextUsageId)

section Steps

variable {w w' : CouponWorld} {inst : PricedInstance} {instanceId months : ℕ}
  {code : Option String} {affRate : Option DiscountRate} {f : PricedInstance → PricedInstance}

theorem CouponDb.SameTables.refl (db : CouponDb) : db.SameTables db := ⟨rfl, rfl, rfl⟩

theorem statusOf_congr (h : w'.instances = w.instances) : w'.statusOf = w.statusOf := by
  funext k
  simp only [CouponWorld.statusOf, h]

theorem statusOf_addInstance (hnew : ∀ other ∈ w.instances, other.id ≠ inst.id) :
    (w.addInstance inst).statusOf = Function.update w.statusOf inst.id (some inst.status) := by
  funext k
  simp only [CouponWorld.statusOf, CouponWorld.addInstance, Keyed.lookup_append_singleton hnew]
  by_cases hk : k = inst.id
  · subst hk
    simp
  · rw [Function.update_of_ne hk, if_neg (Ne.symm hk)]
    rfl

theorem statusOf_updateInstance (hid : ∀ r : PricedInstance, r.id = instanceId → (f r).id = instanceId)
    (hrow : Keyed.lookup PricedInstance.id instanceId w.instances = some inst) :
    (w.updateInstance instanceId f).statusOf
      = Function.update w.statusOf instanceId (some (f inst).status) := by
  funext k
  simp only [CouponWorld.statusOf, CouponWorld.updateInstance, Keyed.lookup_modify hid]
  by_cases hk : k = instanceId
  · subst hk
    simp [hrow]
  · rw [Function.update_of_ne hk, if_neg hk]
    rfl

/-- How a purchase was paid for. -/
inductive CouponWorld.Paid (w w' : CouponWorld) (instanceId : ℕ) : Prop
  | plain (charge : CouponCharge) (hpromo : w'.promo = w.promo)
      (hinstances : w'.instances = w.instances) (hcharges : w'.charges = charge :: w.charges)
      (husage : charge.usageId = none) (hrefusals : w'.refusals = w.refusals)
  | coupon (params : UsageReservation) (coupon : OfficialCoupon) (charge : CouponCharge)
      (hid : params.instanceId = instanceId)
      (hreserved : Reserved w.promo.toCouponDb w'.promo.toCouponDb w.now params coupon)
      (hmode : params.mode = .purchase)
      (hmonths : params.discountedMonths = getDiscountedMonthsForPurchase coupon.renewalMode
        coupon.discountedChargeLimit charge.months)
      (hinstances : w'.instances = w.instances) (hcharges : w'.charges = charge :: w.charges)
      (hcharge : charge.ChargedWith params w.promo.nextUsageId)
      (hrefusals : w'.refusals = w.refusals)

theorem paid_redeem {validation : CouponValidation} {request : CouponValidationRequest}
    (hvalid : w.promo.validateOfficialCoupon w.now request = .ok validation)
    (h : w.redeem inst months validation = some w') : w.Paid w' inst.id := by
  simp only [CouponWorld.redeem] at h
  split at h
  · cases h
  · rename_i coupons hreserve
    obtain rfl := Option.some.inj h
    obtain ⟨coupon, hreserved⟩ := reserveUsage_spec hreserve
    -- both look the coupon up under one code
    obtain ⟨-, hfound⟩ := validate_ok hvalid
    have hagain := hreserved.coupon_eq
    rw [(Keyed.mem_of_lookup hfound).2, hfound] at hagain
    obtain rfl := Option.some.inj hagain
    refine .coupon _ _ _ rfl hreserved rfl rfl rfl rfl ?_ rfl
    exact ⟨rfl, rfl, rfl, rfl, rfl, rfl, getDiscountedMonthsForPurchase_le, rfl⟩

theorem paid_payPurchase (h : w.payPurchase inst code affRate = some w') : w.Paid w' inst.id := by
  simp only [CouponWorld.payPurchase] at h
  split at h
  · obtain rfl := Option.some.inj h
    exact .plain _ rfl rfl rfl rfl rfl
  · split at h
    · rename_i hvalid
      exact paid_redeem hvalid h
    · obtain ⟨rate, -, rfl⟩ := Option.map_eq_some_iff.mp h
      exact .plain _ rfl rfl rfl rfl rfl
    · cases h

theorem paid_payRetry (h : w.payRetry inst code affRate = some w') : w.Paid w' inst.id := by
  simp only [CouponWorld.payRetry] at h
  split at h
  · obtain rfl := Option.some.inj h
    exact .plain _ rfl rfl rfl rfl rfl
  · split at h
    · rename_i hvalid
      split at h
      · exact paid_redeem hvalid h
      · obtain rfl := Option.some.inj h
        exact .plain _ rfl rfl rfl rfl rfl
    · obtain rfl := Option.some.inj h
      exact .plain _ rfl rfl rfl rfl rfl

/-- Paying for an instance that was not there, or whose creation had failed. -/
theorem CouponWorld.Paid.change {v : CouponWorld} (h : v.Paid w' instanceId)
    (hpromo : v.promo = w.promo) (hnow : v.now = w.now) (hcharges : v.charges = w.charges)
    (hbefore : w.statusOf instanceId = none ∨ w.statusOf instanceId = some .error)
    (hstatus : v.statusOf = Function.update w.statusOf instanceId (some .creating)) :
    CouponChange w w' := by
  have hstatusOf (hinstances : w'.instances = v.instances) :
      w'.statusOf = Function.update w.statusOf instanceId (some .creating) := by
    rw [← hstatus]
    exact statusOf_congr hinstances
  cases h with
  | plain charge hpromo' hinstances hcharges' husage hrefusals =>
      refine .bought instanceId charge hbefore ?_ (hstatusOf hinstances) (hcharges ▸ hcharges') husage
      rw [hpromo', hpromo]
      exact .refl _
  | coupon params coupon charge hid hreserved hmode hmonths hinstances hcharges' hcharge hrefusals =>
      subst hid
      rw [hpromo, hnow] at hreserved
      rw [hpromo] at hcharge
      exact .redeemed params coupon charge hbefore hreserved hmode hmonths (hstatusOf hinstances)
        (hcharges ▸ hcharges') hcharge

theorem answerPurchase_same (w : CouponWorld) (inst : PricedInstance) (code : Option String) :
    (w.answerPurchase inst code).promo = w.promo ∧ (w.answerPurchase inst code).now = w.now ∧
      (w.answerPurchase inst code).charges = w.charges ∧
      (w.answerPurchase inst code).instances = w.instances := by
  cases code with
  | none => exact ⟨rfl, rfl, rfl, rfl⟩
  | some code => exact ⟨rfl, rfl, rfl, rfl⟩

theorem CouponWorld.Paid.refusals (h : w.Paid w' instanceId) : w'.refusals = w.refusals := by
  cases h with
  | plain _ _ _ _ _ hrefusals => exact hrefusals
  | coupon _ _ _ _ _ _ _ _ _ _ hrefusals => exact hrefusals

/-- A coupon that may be used is that of the purchase, with months left. -/
theorem usableOfficialCoupon_spec {promo : PromoDb} {now : Time}
    {instance_ : RenewalDiscountInstanceInput} {requested : Option ℕ} {coupon : OfficialCoupon}
    {rate : DiscountRate}
    (h : promo.usableOfficialCoupon now instance_ requested = some (coupon, rate)) :
    instance_.packageId ≠ none ∧ coupon ∈ promo.coupons ∧
      promo.getInstancePurchaseCoupon instance_.id = some coupon ∧
      0 < getDiscountedMonthsForRenewal coupon.renewalMode coupon.discountedChargeLimit
        (promo.countDiscountedMonthsForInstance coupon.id instance_.id) (requested.getD 1) := by
  simp only [PromoDb.usableOfficialCoupon] at h
  split at h
  · rename_i packageId bound hpackage hbound
    split at h
    · rename_i hmonths
      split at h
      · obtain ⟨rfl, -⟩ := Prod.mk.inj (Option.some.inj h)
        refine ⟨by simp [hpackage], ?_, hbound, hmonths⟩
        simp only [CouponDb.getInstancePurchaseCoupon] at hbound
        split at hbound
        · cases hbound
        · exact (Keyed.mem_of_lookup hbound).1
      · cases h
    · cases h
  · cases h

/-- A resolution of months that a coupon discounts. -/
structure ResolvedByCoupon (promo : PromoDb) (instance_ : RenewalDiscountInstanceInput)
    (amount : Cents) (months : ℕ) (discount : RenewalDiscountResolution)
    (coupon : OfficialCoupon) : Prop where
  officialCoupon : discount.officialCoupon = some coupon
  source : discount.source = some .officialCoupon
  applied : PromoDb.appliedDiscountedMonths discount months
    = getDiscountedMonthsForRenewal coupon.renewalMode coupon.discountedChargeLimit
      (promo.countDiscountedMonthsForInstance coupon.id instance_.id) months
  discountAmount : discount.discountAmount = calculateDiscountAmountForMonths amount months
    (PromoDb.appliedDiscountedMonths discount months) discount.discountRate
  finalAmount : discount.finalAmount = amount - discount.discountAmount

/-- A resolution is one by the coupon that may be used, or it has no coupon. -/
theorem resolve_official {promo : PromoDb} {now : Time} {instance_ : RenewalDiscountInstanceInput}
    {amount : Cents} {discount : RenewalDiscountResolution} (hmonths : 1 ≤ months)
    (h : promo.resolveInstanceRenewalDiscount now instance_ amount (some months) = discount) :
    (discount.officialCoupon = none ∧ discount.source ≠ some .officialCoupon) ∨
      ∃ coupon rate, promo.usableOfficialCoupon now instance_ (some months) = some (coupon, rate) ∧
        ResolvedByCoupon promo instance_ amount months discount coupon := by
  subst h
  simp only [PromoDb.resolveInstanceRenewalDiscount]
  split
  · exact .inl ⟨rfl, by rintro ⟨⟩⟩
  · rename_i coupon rate husable _
    refine .inr ⟨coupon, rate, husable, rfl, rfl, ?_, rfl, applyOfficialCouponDiscount_final _ _ _ _⟩
    simp only [PromoDb.appliedDiscountedMonths, getDiscountedMonthsForRenewal,
      if_neg (not_lt.mpr hmonths)]
    rfl
  · exact .inl ⟨rfl, by rintro ⟨⟩⟩
  · exact .inl ⟨rfl, by rintro ⟨⟩⟩

/-- A renewal leaves an instance up. -/
theorem isUp_of_isRenewable {row : Instance} (h : row.isRenewable = true) (newExpiresAt : Time) :
    row.status.isUp = true ∧ (row.renewed newExpiresAt).status.isUp = true := by
  simp only [Instance.isRenewable, Instance.isExpiredSuspension, Bool.or_eq_true, Bool.and_eq_true,
    beq_iff_eq] at h
  have hup : row.status.isUp = true := by
    rcases h with (h | h) | ⟨h, -⟩ <;> rw [h] <;> rfl
  refine ⟨hup, ?_⟩
  simp only [Instance.renewed]
  split
  · rfl
  · exact hup

theorem change_renew (hrow : Keyed.lookup PricedInstance.id inst.id w.instances = some inst)
    (h : w.renew inst months = some w') : CouponChange w w' := by
  simp only [CouponWorld.renew] at h
  split at h
  · cases h
  · rename_i hguard
    simp only [Bool.or_eq_true, Bool.not_eq_true', decide_eq_true_eq, not_or, Bool.not_eq_false,
      not_lt] at hguard
    obtain ⟨⟨⟨-, hmonths⟩, -⟩, hrenewable⟩ := hguard
    have hbefore : w.statusOf inst.id = some inst.status := by
      simp only [CouponWorld.statusOf, hrow, Option.map_some]
    obtain ⟨hup, hup'⟩ := isUp_of_isRenewable hrenewable
      (addMonths (max (inst.expiresAt.getD w.now) w.now) months)
    generalize hd : w.promo.resolveInstanceRenewalDiscount w.now (inst.discountInput inst.userId)
      (inst.renewalAmount months) (some months) = discount at h
    split at h
    · cases h
    · rename_i promo hreserve
      obtain rfl := Option.some.inj h
      have hstatus := statusOf_updateInstance (w := w)
        (f := (·.afterRenewal (addMonths (max (inst.expiresAt.getD w.now) w.now) months)))
        (fun r hr => hr) hrow
      rcases resolve_official hmonths hd with ⟨hnone, -⟩ | ⟨coupon, rate, husable, hby⟩
      · simp only [PromoDb.reserveRenewal, hnone] at hreserve
        obtain rfl := Except.ok.inj hreserve
        refine .renewed inst.id inst.status _ _ hup hup' hbefore (.refl _) hstatus rfl ?_
        simp only [hnone, Option.map_none]
      · obtain ⟨hpackage, hbound, -⟩ := usableOfficialCoupon_spec husable
        obtain ⟨packageId, hpackageId⟩ := Option.ne_none_iff_exists'.mp hpackage
        simp only [PromoDb.reserveRenewal, hby.officialCoupon, hpackageId] at hreserve
        split at hreserve
        · cases hreserve
        · rename_i coupons hcoupons
          obtain rfl := Except.ok.inj hreserve
          obtain ⟨found, hreserved⟩ := reserveUsage_spec hcoupons
          refine .continued _ found coupon inst.status _ _ hup hup' hbefore hbound rfl hreserved rfl
            hby.applied hstatus rfl ⟨?_, rfl, rfl, rfl, hby.discountAmount, hby.finalAmount, ?_,
              hby.source⟩
          · simp only [hby.officialCoupon, Option.map_some]
          · show PromoDb.appliedDiscountedMonths discount months ≤ months
            exact hby.applied.le.trans getDiscountedMonthsForRenewal_le

/-- A step is one of these changes. -/
theorem couponChange_of_step {event : CouponEvent} (h : couponStep w event = some w') :
    CouponChange w w' := by
  have hquiet {v : CouponWorld} (hpromo : v.promo.toCouponDb = w.promo.toCouponDb)
      (hinstances : v.instances = w.instances) (hcharges : v.charges = w.charges) :
      CouponChange w v := by
    exact .quiet (by rw [hpromo]; exact .refl _) (statusOf_congr hinstances) hcharges
  have hanswered (inst : PricedInstance) (code : Option String) :
      CouponChange w (w.answerPurchase inst code) := by
    obtain ⟨hpromo, -, hcharges, hinstances⟩ := answerPurchase_same w inst code
    exact hquiet (by rw [hpromo]) hinstances hcharges
  cases event with
  | advance now =>
      simp only [couponStep] at h
      split at h
      · obtain rfl := Option.some.inj h
        exact hquiet rfl rfl rfl
      · cases h
  | createCoupon coupon =>
      simp only [couponStep, Option.map_eq_some_iff] at h
      obtain ⟨coupons, hcreate, rfl⟩ := h
      exact .issued coupon hcreate rfl rfl
  | setPackageScope packageId scope =>
      obtain rfl := Option.some.inj h
      exact .quiet ⟨rfl, rfl, rfl⟩ rfl rfl
  | setAff affRebateEnabled affCodes affBindings =>
      obtain rfl := Option.some.inj h
      exact hquiet rfl rfl rfl
  | validate code packageId userId =>
      obtain rfl := Option.some.inj h
      exact hquiet rfl rfl rfl
  | purchase inst code affRate =>
      simp only [couponStep] at h
      split at h
      · rename_i hnew
        simp only [Bool.and_eq_true, List.all_eq_true, bne_iff_ne, beq_iff_eq] at hnew
        obtain rfl := Option.some.inj h
        obtain ⟨hpromo, hnow, hcharges, hinstances⟩ := answerPurchase_same w inst code
        cases hpay : ((w.answerPurchase inst code).addInstance inst).payPurchase inst code affRate with
        | none => exact hanswered inst code
        | some paid =>
            refine (paid_payPurchase hpay).change hpromo hnow hcharges (.inl ?_) ?_
            · simp only [CouponWorld.statusOf, Option.map_eq_none_iff, Keyed.lookup_eq_none_iff]
              exact hnew.1
            · rw [statusOf_addInstance (by rw [hinstances]; exact hnew.1), hnew.2,
                statusOf_congr hinstances]
      · cases h
  | provisioned k =>
      simp only [couponStep] at h
      split at h
      · cases h
      · rename_i inst hrow
        split at h
        · rename_i hcreating
          obtain rfl := Option.some.inj h
          exact .moved k .creating .running (by rintro ⟨⟩) rfl
            (by simp only [CouponWorld.statusOf, hrow, Option.map_some, hcreating]) (.refl _)
            (statusOf_updateInstance (fun r hr => hr) hrow) rfl
        · cases h
  | failPurchase k =>
      simp only [couponStep] at h
      split at h
      · cases h
      · rename_i inst hrow
        split at h
        · rename_i hcreating
          split at h
          · cases h
          · rename_i coupons discount hrelease
            obtain rfl := Option.some.inj h
            exact .released k discount
              (by simp only [CouponWorld.statusOf, hrow, Option.map_some, hcreating]) hrelease
              (statusOf_updateInstance (w := w) (fun r hr => hr) hrow) rfl
        · cases h
  | retryPurchase k code affRate =>
      simp only [couponStep] at h
      split at h
      · cases h
      · rename_i inst hrow
        split at h
        · rename_i herror
          obtain rfl := Option.some.inj h
          obtain ⟨hpromo, hnow, hcharges, hinstances⟩ := answerPurchase_same w inst code
          have hid : inst.id = k := (Keyed.mem_of_lookup hrow).2
          cases hpay : ((w.answerPurchase inst code).updateInstance k
              (PricedInstance.withStatus .creating)).payRetry inst code affRate with
          | none => exact hanswered inst code
          | some paid =>
              have hpaid := paid_payRetry hpay
              rw [hid] at hpaid
              refine hpaid.change hpromo hnow hcharges (.inr ?_) ?_
              · simp only [CouponWorld.statusOf, hrow, Option.map_some, herror]
              · rw [statusOf_updateInstance (f := PricedInstance.withStatus .creating)
                  (fun r hr => hr) (by rw [hinstances]; exact hrow), statusOf_congr hinstances]
                rfl
        · cases h
  | renew k months =>
      simp only [couponStep] at h
      split at h
      · cases h
      · rename_i inst hrow
        obtain rfl : inst.id = k := (Keyed.mem_of_lookup hrow).2
        exact change_renew hrow h
  | rewrite inst =>
      simp only [couponStep] at h
      split at h
      · cases h
      · rename_i current hrow
        split at h
        · rename_i hup
          simp only [Bool.and_eq_true] at hup
          obtain rfl := Option.some.inj h
          refine .moved inst.id current.status inst.status ?_ hup.2
            (by simp only [CouponWorld.statusOf, hrow, Option.map_some]) (.refl _)
            (statusOf_updateInstance (fun r hr => rfl) hrow) rfl
          rintro hs
          rw [hs] at hup
          exact absurd hup.1 (by decide)
        · cases h

end Steps

/-! ## The invariant -/

/-- A coupon with one redemption less. -/
def OfficialCoupon.released (coupon : OfficialCoupon) : OfficialCoupon :=
  { coupon with usedCount := coupon.usedCount - 1 }

/-- Usages belong to instances whose creation has not failed; while it is under
way they are of purchases, of which an instance has one at most. -/
structure CouponInv (w : CouponWorld) : Prop where
  kept : w.promo.Kept
  attached : ∀ usage ∈ w.promo.usages,
    ∃ k s, usage.instanceId = some k ∧ w.statusOf k = some s ∧ s ≠ .error
  creating : ∀ usage ∈ w.promo.usages, ∀ k, usage.instanceId = some k →
    w.statusOf k = some .creating → usage.type = .purchase
  onePurchase : ∀ usage ∈ w.promo.usages, ∀ other ∈ w.promo.usages,
    usage.type = .purchase → other.type = .purchase → usage.instanceId = other.instanceId →
    usage = other

section Invariant

variable {w w' : CouponWorld} {instanceId : ℕ} {s s' : InstanceStatus}

/-- An instance that is not there, or has failed, has no usages. -/
theorem CouponInv.no_usage (hw : CouponInv w)
    (hbefore : w.statusOf instanceId = none ∨ w.statusOf instanceId = some .error) :
    ∀ usage ∈ w.promo.usages, usage.instanceId ≠ some instanceId := by
  intro usage husage hid
  obtain ⟨k, s, hk, hs, hne⟩ := hw.attached usage husage
  obtain rfl := Option.some.inj (hk.symm.trans hid)
  rcases hbefore with hnone | herror
  · rw [hnone] at hs
    cases hs
  · rw [herror] at hs
    exact hne (Option.some.inj hs).symm

/-- The usages stay, and the status of one instance becomes one that allows them. -/
theorem CouponInv.restatus (hw : CouponInv w) (hkept : w'.promo.Kept)
    (husages : w'.promo.usages = w.promo.usages)
    (hstatus : w'.statusOf = Function.update w.statusOf instanceId (some s'))
    (hs' : s' ≠ .error)
    (hcreating : s' = .creating →
      ∀ usage ∈ w.promo.usages, usage.instanceId ≠ some instanceId) : CouponInv w' := by
  refine ⟨hkept, ?_, ?_, ?_⟩
  · rw [husages]
    intro usage husage
    obtain ⟨k, s, hk, hs, hne⟩ := hw.attached usage husage
    by_cases hki : k = instanceId
    · subst hki
      exact ⟨k, s', hk, by rw [hstatus, Function.update_self], hs'⟩
    · exact ⟨k, s, hk, by rw [hstatus, Function.update_of_ne hki, hs], hne⟩
  · rw [husages]
    intro usage husage k hk hs
    rw [hstatus] at hs
    by_cases hki : k = instanceId
    · subst hki
      rw [Function.update_self] at hs
      exact absurd hk (hcreating (Option.some.inj hs) usage husage)
    · rw [Function.update_of_ne hki] at hs
      exact hw.creating usage husage k hk hs
  · rw [husages]
    exact hw.onePurchase

/-- A usage of an instance that is bought or up is added. -/
theorem CouponInv.add {params : UsageReservation} {coupon : OfficialCoupon} (hw : CouponInv w)
    (hreserved : Reserved w.promo.toCouponDb w'.promo.toCouponDb w.now params coupon)
    (hstatus : w'.statusOf = Function.update w.statusOf params.instanceId (some s'))
    (hs' : s' ≠ .error)
    (hnew : params.mode = .purchase →
      ∀ usage ∈ w.promo.usages, usage.instanceId ≠ some params.instanceId)
    (hcreating : s' = .creating → params.mode = .purchase) : CouponInv w' := by
  refine ⟨hw.kept.reserve hreserved, ?_, ?_, ?_⟩
  · intro usage husage
    rw [hreserved.usages] at husage
    rcases List.mem_append.mp husage with hold | hadded
    · obtain ⟨k, s, hk, hs, hne⟩ := hw.attached usage hold
      by_cases hki : k = params.instanceId
      · exact ⟨k, s', hk, by rw [hstatus, hki, Function.update_self], hs'⟩
      · exact ⟨k, s, hk, by rw [hstatus, Function.update_of_ne hki, hs], hne⟩
    · obtain rfl := List.mem_singleton.mp hadded
      exact ⟨params.instanceId, s', rfl, by rw [hstatus, Function.update_self], hs'⟩
  · intro usage husage k hk hs
    rw [hstatus] at hs
    rw [hreserved.usages] at husage
    rcases List.mem_append.mp husage with hold | hadded
    · by_cases hki : k = params.instanceId
      · subst hki
        rw [Function.update_self] at hs
        exact absurd hk (hnew (hcreating (Option.some.inj hs)) usage hold)
      · rw [Function.update_of_ne hki] at hs
        exact hw.creating usage hold k hk hs
    · obtain rfl := List.mem_singleton.mp hadded
      obtain rfl : params.instanceId = k := Option.some.inj hk
      rw [Function.update_self] at hs
      exact hcreating (Option.some.inj hs)
  · intro usage husage other hother hpurchase hpurchase' hid
    rw [hreserved.usages] at husage hother
    rcases List.mem_append.mp husage with hold | hadded <;>
      rcases List.mem_append.mp hother with hold' | hadded'
    · exact hw.onePurchase usage hold other hold' hpurchase hpurchase' hid
    · obtain rfl := List.mem_singleton.mp hadded'
      exact absurd hid (hnew hpurchase' usage hold)
    · obtain rfl := List.mem_singleton.mp hadded
      exact absurd hid.symm (hnew hpurchase other hold')
    · rw [List.mem_singleton.mp hadded, List.mem_singleton.mp hadded']

theorem CouponInv.step {event : CouponEvent} (hw : CouponInv w)
    (h : couponStep w event = some w') : CouponInv w' := by
  have hup {s : InstanceStatus} (hs : s.isUp = true) : s ≠ .error ∧ s ≠ .creating := by
    constructor <;> rintro rfl <;> exact absurd hs (by decide)
  cases couponChange_of_step h with
  | quiet htables hstatus _ =>
      refine ⟨hw.kept.same htables, ?_, ?_, ?_⟩ <;> rw [htables.usages]
      · simpa only [hstatus] using hw.attached
      · simpa only [hstatus] using hw.creating
      · exact hw.onePurchase
  | issued coupon hcreate hstatus _ =>
      have husages : w'.promo.usages = w.promo.usages := by
        simp only [CouponDb.createOfficialCoupon] at hcreate
        split at hcreate
        · rw [← Option.some.inj hcreate]
        · cases hcreate
      refine ⟨hw.kept.createOfficialCoupon hcreate, ?_, ?_, ?_⟩ <;> rw [husages]
      · simpa only [hstatus] using hw.attached
      · simpa only [hstatus] using hw.creating
      · exact hw.onePurchase
  | bought k charge hbefore htables hstatus _ _ =>
      exact hw.restatus (hw.kept.same htables) htables.usages hstatus (by rintro ⟨⟩)
        fun _ => hw.no_usage hbefore
  | redeemed params coupon charge hbefore hreserved hmode _ hstatus _ _ =>
      exact hw.add hreserved hstatus (by rintro ⟨⟩) (fun _ => hw.no_usage hbefore) fun _ => hmode
  | moved k s s' _ hs' _ htables hstatus _ =>
      exact hw.restatus (hw.kept.same htables) htables.usages hstatus (hup hs').1
        fun hcreating => absurd hcreating (hup hs').2
  | released k discount _ hrelease hstatus _ =>
      have hgone : w'.promo.usages
          = w.promo.usages.filter fun usage => usage.instanceId != some k := by
        rcases releaseUsages_spec hrelease with ⟨hnone, hsame⟩ | hsame
        · rw [hsame]
          refine (List.filter_eq_self.mpr fun usage husage => ?_).symm
          have := List.filter_eq_nil_iff.mp hnone usage husage
          simpa [bne_iff_ne] using this
        · rw [hsame]
      have hold {usage : OfficialCouponUsage} (husage : usage ∈ w'.promo.usages) :
          usage ∈ w.promo.usages ∧ usage.instanceId ≠ some k := by
        rw [hgone] at husage
        simpa [bne_iff_ne] using List.mem_filter.mp husage
      refine ⟨hw.kept.release hrelease, ?_, ?_, ?_⟩
      · intro usage husage
        obtain ⟨hmem, hne⟩ := hold husage
        obtain ⟨j, s, hj, hs, herror⟩ := hw.attached usage hmem
        have hjk : j ≠ k := by
          rintro rfl
          exact hne hj
        exact ⟨j, s, hj, by rw [hstatus, Function.update_of_ne hjk, hs], herror⟩
      · intro usage husage j hj hs
        obtain ⟨hmem, hne⟩ := hold husage
        have hjk : j ≠ k := by
          rintro rfl
          exact hne hj
        rw [hstatus, Function.update_of_ne hjk] at hs
        exact hw.creating usage hmem j hj hs
      · intro usage husage other hother
        exact hw.onePurchase usage (hold husage).1 other (hold hother).1
  | renewed k s s' charge _ hs' _ htables hstatus _ _ =>
      exact hw.restatus (hw.kept.same htables) htables.usages hstatus (hup hs').1
        fun hcreating => absurd hcreating (hup hs').2
  | continued params coupon bound s s' charge _ hs' _ _ _ hreserved hmode _ hstatus _ _ =>
      refine hw.add hreserved hstatus (hup hs').1 (fun hpurchase => ?_)
        fun hcreating => absurd hcreating (hup hs').2
      rw [hmode] at hpurchase
      cases hpurchase

end Invariant

/-! ## Releases -/

/-- `db'` is `db` from before the redemption of `usage`: the redemption makes of
its coupons those of `db`, and `usage` is what `db` has more. -/
structure CouponDb.Restores (db db' : CouponDb) (usage : OfficialCouponUsage) : Prop where
  purchase : usage.type = .purchase
  coupons : db'.coupons
    = Keyed.modify OfficialCoupon.id usage.couponId OfficialCoupon.released db.coupons
  redeemed : Keyed.modify OfficialCoupon.id usage.couponId OfficialCoupon.redeemed db'.coupons
    = db.coupons
  usages : db'.usages = db.usages.filter fun other => other.id != usage.id

section Releases

variable {w : CouponWorld} {db : CouponDb} {instanceId : ℕ}

/-- No release throws: a coupon counts at least the purchases of one instance. -/
theorem release_succeeds (h : db.Kept) (instanceId : ℕ) :
    ∃ result, db.releaseOfficialCouponUsageByInstance instanceId = .ok result := by
  simp only [CouponDb.releaseOfficialCouponUsageByInstance]
  split
  · exact ⟨_, rfl⟩
  · split
    · rename_i usage hfound
      have hbad := List.find?_some hfound
      have hmem : usage ∈ db.usages :=
        List.mem_of_mem_filter (List.mem_of_find?_eq_some hfound)
      obtain ⟨coupon, hcoupon, hid⟩ := h.known usage hmem
      have hlookup : Keyed.lookup OfficialCoupon.id usage.couponId db.coupons = some coupon :=
        hid ▸ Keyed.lookup_of_mem h.ids hcoupon
      have hle : (db.usagesOf instanceId).countP (·.isPurchaseOf usage.couponId)
          ≤ coupon.usedCount := by
        rw [h.counts coupon hcoupon, hid]
        exact List.filter_sublist.countP_le
      simp [CouponDb.hasRedemptions, hlookup, hle] at hbad
    · exact ⟨_, rfl⟩

/-- While an instance is under construction its usages are the one of its
purchase, or there are none. -/
theorem CouponInv.usagesOf_creating (hw : CouponInv w)
    (hcreating : w.statusOf instanceId = some .creating) :
    w.promo.usagesOf instanceId = [] ∨
      ∃ usage, w.promo.usagesOf instanceId = [usage] ∧ usage.type = .purchase := by
  have hof {usage : OfficialCouponUsage} (h : usage ∈ w.promo.usagesOf instanceId) :
      usage ∈ w.promo.usages ∧ usage.instanceId = some instanceId ∧ usage.type = .purchase := by
    obtain ⟨hmem, hid⟩ := List.mem_filter.mp h
    have hid' : usage.instanceId = some instanceId := by simpa using hid
    exact ⟨hmem, hid', hw.creating usage hmem instanceId hid' hcreating⟩
  have hnodup : (w.promo.usagesOf instanceId).Nodup :=
    (List.Nodup.of_map _ hw.kept.usageIds).filter _
  cases hlist : w.promo.usagesOf instanceId with
  | nil => exact .inl rfl
  | cons usage rest =>
      rw [hlist] at hof hnodup
      obtain ⟨hmem, hid, htype⟩ := hof List.mem_cons_self
      refine .inr ⟨usage, ?_, htype⟩
      cases rest with
      | nil => rfl
      | cons other rest =>
          obtain ⟨hmem', hid', htype'⟩ := hof (List.mem_cons_of_mem _ List.mem_cons_self)
          obtain rfl := hw.onePurchase usage hmem other hmem' htype htype' (hid.trans hid'.symm)
          exact absurd List.mem_cons_self (List.nodup_cons.mp hnodup).1

/-- A release after a failed creation undoes the redemption, if there was one. -/
theorem CouponInv.release (hw : CouponInv w)
    (hcreating : w.statusOf instanceId = some .creating) :
    ∃ db' discount,
      w.promo.releaseOfficialCouponUsageByInstance instanceId = .ok (db', discount) ∧
      ((w.promo.usagesOf instanceId = [] ∧ db' = w.promo.toCouponDb) ∨
        ∃ usage, w.promo.usagesOf instanceId = [usage] ∧
          w.promo.toCouponDb.Restores db' usage) := by
  obtain ⟨⟨db', discount⟩, hrelease⟩ := release_succeeds hw.kept instanceId
  refine ⟨db', discount, hrelease, ?_⟩
  rcases hw.usagesOf_creating hcreating with hnone | ⟨usage, hone, htype⟩
  · rcases releaseUsages_spec hrelease with hsame | hgone
    · exact .inl hsame
    · refine .inl ⟨hnone, ?_⟩
      simp only [CouponDb.releaseOfficialCouponUsageByInstance, hnone, if_true] at hrelease
      exact (Prod.mk.inj (Except.ok.inj hrelease)).1.symm
  · refine .inr ⟨usage, hone, ?_⟩
    rcases releaseUsages_spec hrelease with ⟨hnone, -⟩ | rfl
    · rw [hnone] at hone
      cases hone
    · have hmem : usage ∈ w.promo.usagesOf instanceId := hone ▸ List.mem_cons_self
      obtain ⟨husage, hid⟩ := List.mem_filter.mp hmem
      have hcount (c : OfficialCoupon) :
          (w.promo.usagesOf instanceId).countP (·.isPurchaseOf c.id)
            = if c.id = usage.couponId then 1 else 0 := by
        rw [hone, List.countP_singleton]
        by_cases hc : c.id = usage.couponId
        · simp [OfficialCouponUsage.isPurchaseOf, htype, hc]
        · simp [OfficialCouponUsage.isPurchaseOf, hc, Ne.symm hc]
      have hcoupons : (w.promo.coupons.map fun coupon =>
          { coupon with usedCount := coupon.usedCount
            - (w.promo.usagesOf instanceId).countP (·.isPurchaseOf coupon.id) })
          = Keyed.modify OfficialCoupon.id usage.couponId OfficialCoupon.released
            w.promo.coupons := by
        refine List.map_congr_left fun c _ => ?_
        rw [hcount]
        split <;> rfl
      refine ⟨htype, hcoupons, ?_, ?_⟩
      · show Keyed.modify OfficialCoupon.id usage.couponId OfficialCoupon.redeemed
          (w.promo.coupons.map _) = _
        rw [hcoupons]
        simp only [Keyed.modify, List.map_map]
        refine (List.map_congr_left fun c hc => ?_).trans (List.map_id _)
        simp only [Function.comp_apply, id_eq]
        by_cases hcid : c.id = usage.couponId
        · have hpos : 1 ≤ c.usedCount := by
            rw [hw.kept.counts c hc]
            refine List.one_le_countP_iff.mpr ⟨usage, husage, ?_⟩
            simp [OfficialCouponUsage.isPurchaseOf, htype, hcid]
          rw [if_pos hcid, if_pos (show c.released.id = usage.couponId from hcid)]
          simp only [OfficialCoupon.released, OfficialCoupon.redeemed, Nat.sub_add_cancel hpos]
        · rw [if_neg hcid, if_neg hcid]
      · refine List.filter_congr fun other hother => ?_
        have hiff : other.instanceId = some instanceId ↔ other.id = usage.id := by
          constructor
          · intro hother'
            have : other ∈ w.promo.usagesOf instanceId :=
              List.mem_filter.mpr ⟨hother, by simpa using hother'⟩
            rw [hone] at this
            rw [List.mem_singleton.mp this]
          · intro hsame
            have := List.inj_on_of_nodup_map hw.kept.usageIds hother husage hsame
            rw [this]
            simpa using hid
        simp only [bne, beq_eq_decide]
        simp [hiff]

end Releases

/-! ## The limit per user -/

/-- The validation that a step makes for a user who wants to buy. -/
def CouponWorld.requestOf (w : CouponWorld) : CouponEvent → Option CouponValidationRequest
  | .validate code packageId userId => some { code, packageId, userId }
  | .purchase inst code _ => code.map (CouponWorld.purchaseRequest inst)
  | .retryPurchase instanceId code _ =>
      match Keyed.lookup PricedInstance.id instanceId w.instances with
      | some inst => code.map (CouponWorld.purchaseRequest inst)
      | none => none
  | _ => none

/-- The renewals of the user do not make the difference for the validation. -/
def distinguishesRenewals (w : CouponWorld) (event : CouponEvent) : Bool :=
  (w.requestOf event).all fun request =>
    !w.promo.renewalsFillLimit request.code request.userId

section Refusals

variable {w w' : CouponWorld} {event : CouponEvent} {request : CouponValidationRequest}
  {r : UserLimitRefusal}

/-- Where renewals make no difference, only purchases reach the limit. -/
theorem limit_le_purchases (h : w.userLimitRefusal request = some r)
    (hrenewals : w.promo.renewalsFillLimit request.code request.userId = false) :
    r.limit ≤ r.purchases := by
  simp only [CouponWorld.userLimitRefusal] at h
  split at h
  · rename_i coupon hvalidate hcoupon
    obtain rfl := Option.some.inj h
    obtain ⟨found, limit, hfound, hlimit, hreached⟩ := validate_userLimit hvalidate
    obtain rfl := Option.some.inj (hcoupon.symm.trans hfound)
    simp only [CouponDb.renewalsFillLimit, hcoupon, Option.any_some, hlimit, Bool.and_eq_false_iff,
      decide_eq_false_iff_not, not_lt, not_le] at hrenewals
    rcases hrenewals with hle | hlt
    · simpa only [hlimit, Option.getD_some] using hle
    · exact absurd hreached (not_le.mpr hlt)
  · cases h

theorem refusals_answer (h : r ∈ (w.answer request).refusals) :
    w.userLimitRefusal request = some r ∨ r ∈ w.refusals := by
  rcases List.mem_append.mp h with hnew | hold
  · exact .inl (Option.mem_toList.mp hnew)
  · exact .inr hold

theorem refusals_answerPurchase {inst : PricedInstance} {code : Option String}
    (h : r ∈ (w.answerPurchase inst code).refusals) :
    (∃ request ∈ code.map (CouponWorld.purchaseRequest inst),
      w.userLimitRefusal request = some r) ∨ r ∈ w.refusals := by
  cases code with
  | none => exact .inr h
  | some code =>
      rcases refusals_answer h with hnew | hold
      · exact .inl ⟨_, rfl, hnew⟩
      · exact .inr hold

/-- A refusal that a step adds is of the validation it makes. -/
theorem refusals_of_step (h : couponStep w event = some w') (hr : r ∈ w'.refusals) :
    (∃ request ∈ w.requestOf event, w.userLimitRefusal request = some r) ∨ r ∈ w.refusals := by
  cases event with
  | advance now =>
      simp only [couponStep] at h
      split at h
      · obtain rfl := Option.some.inj h
        exact .inr hr
      · cases h
  | createCoupon coupon =>
      simp only [couponStep, Option.map_eq_some_iff] at h
      obtain ⟨coupons, -, rfl⟩ := h
      exact .inr hr
  | setPackageScope packageId scope =>
      obtain rfl := Option.some.inj h
      exact .inr hr
  | setAff affRebateEnabled affCodes affBindings =>
      obtain rfl := Option.some.inj h
      exact .inr hr
  | validate code packageId userId =>
      obtain rfl := Option.some.inj h
      rcases refusals_answer hr with hnew | hold
      · exact .inl ⟨_, rfl, hnew⟩
      · exact .inr hold
  | purchase inst code affRate =>
      simp only [couponStep] at h
      split at h
      · obtain rfl := Option.some.inj h
        have hanswered : r ∈ (w.answerPurchase inst code).refusals := by
          cases hpay : ((w.answerPurchase inst code).addInstance inst).payPurchase inst code
              affRate with
          | none => simpa only [hpay, Option.getD_none] using hr
          | some paid =>
              rw [hpay, Option.getD_some, (paid_payPurchase hpay).refusals] at hr
              exact hr
        exact refusals_answerPurchase hanswered
      · cases h
  | provisioned k =>
      simp only [couponStep] at h
      split at h
      · cases h
      · split at h
        · obtain rfl := Option.some.inj h
          exact .inr hr
        · cases h
  | failPurchase k =>
      simp only [couponStep] at h
      split at h
      · cases h
      · split at h
        · split at h
          · cases h
          · obtain rfl := Option.some.inj h
            exact .inr hr
        · cases h
  | retryPurchase k code affRate =>
      simp only [couponStep] at h
      split at h
      · cases h
      · rename_i inst hrow
        split at h
        · obtain rfl := Option.some.inj h
          simp only [CouponWorld.requestOf, hrow]
          have hanswered : r ∈ (w.answerPurchase inst code).refusals := by
            cases hpay : ((w.answerPurchase inst code).updateInstance k
                (PricedInstance.withStatus .creating)).payRetry inst code affRate with
            | none => simpa only [hpay, Option.getD_none] using hr
            | some paid =>
                rw [hpay, Option.getD_some, (paid_payRetry hpay).refusals] at hr
                exact hr
          exact refusals_answerPurchase hanswered
        · cases h
  | renew k months =>
      simp only [couponStep] at h
      split at h
      · cases h
      · simp only [CouponWorld.renew] at h
        split at h
        · cases h
        · split at h
          · cases h
          · obtain rfl := Option.some.inj h
            exact .inr hr
  | rewrite inst =>
      simp only [couponStep] at h
      split at h
      · cases h
      · split at h
        · obtain rfl := Option.some.inj h
          exact .inr hr
        · cases h

end Refusals

/-! ## Over whole runs -/

/-- Before the first coupon and the first instance. -/
structure CouponWorld.Start (w : CouponWorld) : Prop where
  coupons : w.promo.coupons = []
  usages : w.promo.usages = []
  instances : w.instances = []
  charges : w.charges = []
  refusals : w.refusals = []

/-- Coupons count their purchases and stay within their limits, refusals are for
purchases, and a release undoes the redemption. -/
structure CouponWorld.CouponsKept (w : CouponWorld) : Prop where
  usedCount : ∀ coupon ∈ w.promo.coupons,
    coupon.usedCount = w.promo.usages.countP (·.isPurchaseOf coupon.id)
  withinLimit : ∀ coupon ∈ w.promo.coupons, ∀ limit, coupon.totalUsageLimit = some limit →
    coupon.usedCount ≤ limit
  refusals : ∀ r ∈ w.refusals, r.limit ≤ r.purchases
  release : ∀ instanceId, w.statusOf instanceId = some .creating → ∃ db' discount,
    w.promo.releaseOfficialCouponUsageByInstance instanceId = .ok (db', discount) ∧
    ((w.promo.usagesOf instanceId = [] ∧ db' = w.promo.toCouponDb) ∨
      ∃ usage, w.promo.usagesOf instanceId = [usage] ∧
        w.promo.toCouponDb.Restores db' usage)

theorem CouponWorld.Start.inv {w : CouponWorld} (h : w.Start) : CouponInv w := by
  refine ⟨⟨?_, ?_, ?_, ?_, ?_, ?_, ?_⟩, ?_, ?_, ?_⟩ <;> simp [h.coupons, h.usages]

/-- In every run in which no validation finds renewals making the difference. -/
theorem coupons_kept {w₀ w : CouponWorld} (h₀ : w₀.Start)
    (h : Machine.Reach couponStep (fun w event => distinguishesRenewals w event = true) w₀ w) :
    w.CouponsKept := by
  have hinv : CouponInv w ∧ ∀ r ∈ w.refusals, r.limit ≤ r.purchases := by
    refine h.invariant (P := fun w => CouponInv w ∧ ∀ r ∈ w.refusals, r.limit ≤ r.purchases)
      ⟨h₀.inv, by simp [h₀.refusals]⟩ ?_
    intro v v' event ⟨hinv, hrefusals⟩ hguard hstep
    refine ⟨hinv.step hstep, fun r hr => ?_⟩
    rcases refusals_of_step hstep hr with ⟨request, hrequest, hrefused⟩ | hold
    · refine limit_le_purchases hrefused ?_
      simp only [distinguishesRenewals, Option.mem_def.mp hrequest, Option.all_some,
        Bool.not_eq_true'] at hguard
      exact hguard
    · exact hrefusals r hold
  exact ⟨hinv.1.kept.counts, hinv.1.kept.limits, hinv.2, fun _ => hinv.1.release⟩

/-! ### Two runs -/

theorem tenth_nonneg : (0 : ℚ) ≤ 1 / 10 := by norm_num

theorem tenth_le_one : (1 : ℚ) / 10 ≤ 1 := by norm_num

/-- Ten percent off, for renewals too; `maxUsesPerUser` counts if it is reusable. -/
def renewableCoupon (reusable : Bool) : OfficialCoupon where
  id := 1
  code := "PROMO"
  discountRate := ⟨1 / 10, tenth_nonneg, tenth_le_one⟩
  reusable
  maxUsesPerUser := some 2
  totalUsageLimit := some 5
  renewalMode := .recurring

/-- 10.00 a month, bought by the user 1. -/
def promotedInstance : PricedInstance where
  id := 1
  userId := 1
  hostId := 1
  status := .creating
  packageId := some 1
  packagePlanId := some 1
  billingPrice := some 1000
  billingCycle := some 1

def emptyCouponWorld : CouponWorld where
  now := 0

theorem emptyCouponWorld_start : emptyCouponWorld.Start := ⟨rfl, rfl, rfl, rfl, rfl⟩

/-- A purchase whose creation fails and is repeated, a renewal, and then the code
is asked for again: once is the limit, and once it was used. -/
theorem coupons_kept_retried : ∃ w : CouponWorld, w.refusals = [⟨1, 1, 1, 1⟩] ∧
    w.promo.coupons.map OfficialCoupon.usedCount = [1] ∧ w.promo.usages.length = 2 ∧
    w.CouponsKept := by
  have hrun : (Machine.exec (Machine.guarded couponStep distinguishesRenewals) emptyCouponWorld
      [.setPackageScope 1 (some .official), .createCoupon (renewableCoupon false),
        .purchase promotedInstance (some "PROMO") none, .failPurchase 1,
        .retryPurchase 1 (some "PROMO") none, .provisioned 1, .renew 1 1,
        .validate "PROMO" 1 1]).map
      (fun w => (w.refusals, w.promo.coupons.map OfficialCoupon.usedCount, w.promo.usages.length))
      = some ([⟨1, 1, 1, 1⟩], [1], 2) := by decide +kernel
  obtain ⟨w, hw, hvalues⟩ := Option.map_eq_some_iff.mp hrun
  obtain ⟨hrefusals, hrest⟩ := Prod.mk.inj hvalues
  obtain ⟨hcounts, hlength⟩ := Prod.mk.inj hrest
  exact ⟨w, hrefusals, hcounts, hlength,
    coupons_kept emptyCouponWorld_start (Machine.reach_of_exec_guarded hw)⟩

/-- A user who may use a coupon twice buys one instance with it and renews it, and
is refused the second purchase. -/
theorem renewal_uses_up_limit : ∃ w, Machine.Reach couponStep Machine.free emptyCouponWorld w ∧
    w.refusals = [⟨1, 1, 2, 1⟩] ∧ ¬w.CouponsKept := by
  have hrun : (Machine.exec couponStep emptyCouponWorld
      [.setPackageScope 1 (some .official), .createCoupon (renewableCoupon true),
        .purchase promotedInstance (some "PROMO") none, .provisioned 1, .renew 1 1,
        .validate "PROMO" 1 1]).map CouponWorld.refusals = some [⟨1, 1, 2, 1⟩] := by decide +kernel
  obtain ⟨w, hw, hrefusals⟩ := Option.map_eq_some_iff.mp hrun
  refine ⟨w, Machine.reach_of_exec hw, hrefusals, fun hkept => ?_⟩
  have hle := hkept.refusals ⟨1, 1, 2, 1⟩ (by rw [hrefusals]; exact List.mem_cons_self)
  exact absurd hle (by decide)

end Incudal
