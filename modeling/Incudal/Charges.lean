/-
# `Charges` — purchases, renewals and plan changes

A charge debits the user, writes a billing record and is income of the host's
owner.  What discounts leave of the price is an argument (`Discounted`): every
outcome of resolving coupons and referral codes is admitted.  With an official
coupon the owner earns the price before the discount, else what the user pays.

A plan change charges the difference of the two plans for the remaining time
or refunds it, the refund being capped by `getMaxRefundable`.
-/
import Incudal.Settlement

namespace Incudal

/-! ## Charging -/

/-- The price of a charge before and after its discount, whose rate is between
nothing and all of it. -/
structure Discounted where
  originalAmount : Cents
  finalAmount : Cents
  officialCoupon : Option ℕ := none
  nonneg : 0 ≤ finalAmount := by decide
  le : finalAmount ≤ originalAmount := by decide
deriving DecidableEq, Repr

/-- What the host's owner earns: the platform bears the discount of a coupon. -/
def Discounted.hostingIncome (d : Discounted) : Cents :=
  match d.officialCoupon with
  | some _ => d.originalAmount
  | none => d.finalAmount

/-- What a coupon takes off. -/
def Discounted.couponDiscount (d : Discounted) : Cents :=
  match d.officialCoupon with
  | some _ => d.originalAmount - d.finalAmount
  | none => 0

/-- The debit of a charge with its log, whose id is returned. -/
def chargeBalance (db : Db) (userId instanceId : ℕ) (amount : Cents) : Except String (Db × ℕ) :=
  match db.users userId with
  | none => .error "用户不存在"
  | some user =>
      if user.balance < toUnits amount then .error "余额不足"
      else
        let balanceAfter := user.balance - toUnits amount
        .ok ((db.updateUser userId fun u => { u with balance := u.balance - toUnits amount }).createBalanceLog
          { id := 0, userId, type := .consume, amount := -toUnits amount
            balanceBefore := roundUnits (balanceAfter + toUnits amount), balanceAfter
            instanceId := some instanceId })

/-- `reserveOfficialCouponUsage`, once the coupon has been found valid. -/
def reserveOfficialCouponUsage (db : Db) (e : Env) (userId instanceId : ℕ) (type : CouponUsageType)
    (d : Discounted) : Db :=
  match d.officialCoupon with
  | none => db
  | some couponId =>
      let usedCount :=
        if type = .purchase then
          Function.update db.couponUsedCount couponId ((db.couponUsedCount couponId).map (· + 1))
        else db.couponUsedCount
      { db with
          couponUsedCount := usedCount
          couponUsages := db.couponUsages ++
            [{ id := db.nextId, couponId, userId, instanceId := some instanceId, type
               originalPrice := d.originalAmount
               discountAmount := d.originalAmount - d.finalAmount, createdAt := e.now }]
          nextId := db.nextId + 1 }

/-- `addMonths`: a month has 31 days. -/
def addMonths (date : Time) (months : ℕ) : Time := date + months * freezeMs

/-- The row of a package instance that has just been bought. -/
def Instance.purchased (inst : Instance) (billingCycle : ℕ) (expiresAt : Time) : Instance :=
  { inst with
      status := .creating, billingMode := .package, expiresAt := some expiresAt
      billingCycle := some billingCycle, provisioningCleanupPending := false
      deletionBillingPending := false, deletionRemoteDeleted := false
      deletionBillingMode := none, deletionRefundableValue := none, deletionFeeWaiver := false }

/-- The billing part of creating a package instance: debit, row, record, coupon, income. -/
def createInstance (db : Db) (e : Env) (instanceId : ℕ) (inst : Instance) (billingCycle : ℕ)
    (d : Discounted) : Except String Db :=
  match db.instances instanceId with
  | some _ => .error "Unique constraint failed on the fields: (id)"
  | none =>
      match chargeBalance db inst.userId instanceId d.finalAmount with
      | .error message => .error message
      | .ok (db, balanceLogId) =>
          let expiresAt := addMonths e.now billingCycle
          let db := db.setInstance instanceId (inst.purchased billingCycle expiresAt)
          let db := db.createBillingRecord
            { id := 0, instanceId, userId := inst.userId, type := .newPurchase
              amount := d.finalAmount, months := billingCycle, periodStart := e.now
              periodEnd := expiresAt, balanceLogId := some balanceLogId, createdAt := e.now }
          let db := reserveOfficialCouponUsage db e inst.userId instanceId .purchase d
          .ok (processHostingIncome db e inst.hostId d.hostingIncome instanceId)

/-- `claimInstanceAndReserveResources`: a failed instance is taken up again. -/
def claimFailedInstance (db : Db) (instanceId : ℕ) : Db × Bool :=
  match db.instances instanceId with
  | none => (db, false)
  | some inst =>
      if inst.status = .error ∧ inst.provisioningCleanupPending = false then
        (db.updateInstance instanceId fun i =>
          { i with status := .creating, version := i.version + 1 }, true)
      else (db, false)

def Instance.extended (expiresAt : Time) (inst : Instance) : Instance :=
  { inst with expiresAt := some expiresAt }

/-- The charge of a repeated creation. -/
def retryPurchase (db : Db) (e : Env) (instanceId purchaseMonths : ℕ) (d : Discounted) :
    Except String Db :=
  match db.instances instanceId with
  | none => .error "INSTANCE_NOT_FOUND"
  | some inst =>
      match chargeBalance db inst.userId instanceId d.finalAmount with
      | .error message => .error message
      | .ok (db, balanceLogId) =>
          let periodEnd := e.now + getCycleDays purchaseMonths * msPerDay
          let db := db.createBillingRecord
            { id := 0, instanceId, userId := inst.userId, type := .newPurchase
              amount := d.finalAmount, months := purchaseMonths, periodStart := e.now, periodEnd
              balanceLogId := some balanceLogId, createdAt := e.now }
          let db := reserveOfficialCouponUsage db e inst.userId instanceId .purchase d
          let db := db.updateInstance instanceId (·.extended periodEnd)
          .ok (processHostingIncome db e inst.hostId d.hostingIncome instanceId)

/-! ## Renewal -/

/-- Suspended because it has expired. -/
def Instance.isExpiredSuspension (inst : Instance) : Bool :=
  inst.status == .suspended && inst.suspendReason == some "expired"

/-- The statuses that may be renewed. -/
def Instance.isRenewable (inst : Instance) : Bool :=
  inst.status == .running || inst.status == .stopped || inst.isExpiredSuspension

/-- `isPackageInstance`. -/
def Instance.isPackageInstance (inst : Instance) : Bool :=
  inst.billingMode == .package && inst.packagePlanId.isSome

/-- `calculateMonthlyPrice`. -/
def Instance.monthlyPrice (inst : Instance) : ℚ :=
  (inst.billingPrice.getD 0 : ℚ) / max (inst.billingCycle.getD 1) 1

/-- The amount of `calculateRenewBilling`. -/
def Instance.renewalAmount (inst : Instance) (months : ℕ) : Cents :=
  roundCurrency (inst.monthlyPrice * months)

/-- The row after a renewal; an expired suspension is lifted. -/
def Instance.renewed (newExpiresAt : Time) (inst : Instance) : Instance :=
  { inst with
      expiresAt := some newExpiresAt, version := inst.version + 1
      status := if inst.isExpiredSuspension then .stopped else inst.status
      suspendReason := if inst.isExpiredSuspension then none else inst.suspendReason }

/-- `performRenewal` with the snapshot `inst` of the row; `d` is what the discount
resolution makes of the amount. -/
def performRenewal (db : Db) (e : Env) (userId instanceId : ℕ) (inst : Instance) (months : ℕ)
    (d : Discounted) : Except String Db :=
  if !inst.isPackageInstance then .error "免费实例无需续费"
  else if months < 1 ∨ 24 < months then .error "续费月数必须在 1-24 之间"
  else if !inst.isRenewable then .error "当前实例状态不允许续费"
  else
    match db.instances instanceId with
    | none => .error "实例状态已变更，请重试"
    | some currentInstance =>
        if currentInstance.version ≠ inst.version ∨ !currentInstance.isRenewable then
          .error "实例状态已变更，请重试"
        else
          match chargeBalance db userId instanceId d.finalAmount with
          | .error message => .error message
          | .ok (db, balanceLogId) =>
              let expiresAt := inst.expiresAt.getD e.now
              let newExpiresAt := addMonths (max expiresAt e.now) months
              let db := db.updateInstance instanceId (·.renewed newExpiresAt)
              let db := db.createBillingRecord
                { id := 0, instanceId, userId, type := .renew, amount := d.finalAmount, months
                  periodStart := expiresAt, periodEnd := newExpiresAt
                  balanceLogId := some balanceLogId, createdAt := e.now }
              let db := reserveOfficialCouponUsage db e userId instanceId .renewal d
              .ok (processHostingIncome db e inst.hostId d.hostingIncome instanceId)

/-! ## Plan changes -/

/-- The columns of a plan that a change reads; `price` is in hundredths of a cent. -/
structure PackagePlan where
  id : ℕ
  packageId : ℕ
  price : ℕ
  billingCycle : ℕ
  isActive : Bool := true
  isSoldOut : Bool := false
deriving DecidableEq, Repr

/-- The rate of the referral code bound to the instance, enabled or not. -/
def boundAffDiscountRate (db : Db) (instanceId : ℕ) : ℚ :=
  if !db.affRebateEnabled then 0
  else
    match db.affBindings instanceId with
    | none => 0
    | some codeId => ((db.affCodes codeId).map (·.discountRate)).getD 0

/-- `calculatePlanChange`, as far as the change uses it; `none` when too little
time remains. -/
def calculatePlanChange (db : Db) (now : Time) (instanceId : ℕ) (inst : Instance)
    (newPlan : PackagePlan) : Option PlanChangeCalcResult :=
  let remainingDays := calculateRemainingDaysPrecise (inst.expiresAt.getD 0) now
  if remainingDays < 15 then none
  else
    let calcResult := calculatePlanChangeDetails (inst.billingPrice.getD 0)
      (match inst.billingCycle with | some 0 => 1 | some cycle => cycle | none => 1)
      ((newPlan.price : ℚ) / 100) newPlan.billingCycle remainingDays
      (boundAffDiscountRate db instanceId)
    some { calcResult with
      priceDiff :=
        if calcResult.priceDiff < 0 then -min |calcResult.priceDiff| (getMaxRefundable db instanceId)
        else calcResult.priceDiff }

/-- The refund of a downgrade: credit, log, record, and hosting income only when
the host's present owner earns it. -/
def downgradeRefund (db : Db) (e : Env) (userId instanceId hostId : ℕ) (user : User)
    (refundAmount : Cents) : Except String Db :=
  let newBalance := user.balance + toUnits refundAmount
  let oldBalance := roundUnits (newBalance - toUnits refundAmount)
  let (db, balanceLogId) := creditRefund db userId instanceId refundAmount oldBalance newBalance
  let hostedRefundAmount := calculateHostedRefundAmount db e.now instanceId refundAmount true
  let db := recordRefund db e userId instanceId refundAmount balanceLogId
  if 0 < hostedRefundAmount ∧ (resolveHostedIncomeOwner db hostId none false).isSome then
    match deductHostingBalance db e hostId hostedRefundAmount instanceId with
    | .error message => .error message
    | .ok (db, _) => .ok db
  else .ok db

/-- What the change does to balances and ledgers, by the sign of the difference. -/
def settlePlanChange (db : Db) (e : Env) (userId instanceId hostId : ℕ) (priceDiff : Cents) :
    Except String Db :=
  match db.users userId with
  | none => .error "用户不存在"
  | some user =>
      if 0 < priceDiff then
        match chargeBalance db userId instanceId priceDiff with
        | .error message => .error message
        | .ok (db, _) => .ok (processHostingIncome db e hostId priceDiff instanceId)
      else
        let refundAmount := min |priceDiff| (getMaxRefundable db instanceId)
        if priceDiff < 0 ∧ 0 < refundAmount then
          downgradeRefund db e userId instanceId hostId user refundAmount
        else .ok db

/-- The row after a plan change; the expiry stays. -/
def Instance.changedTo (newPlan : PackagePlan) (inst : Instance) : Instance :=
  { inst with
      packagePlanId := some newPlan.id
      billingPrice := some (roundCurrency ((newPlan.price : ℚ) / 100))
      billingCycle := some newPlan.billingCycle, version := inst.version + 1 }

/-- `performPlanChange` with the snapshot `inst` of the row. -/
def performPlanChange (db : Db) (e : Env) (userId instanceId : ℕ) (inst : Instance)
    (newPlan : PackagePlan) : Except String Db :=
  if !inst.isPackageInstance then .error "免费实例不支持升降级"
  else if ¬(inst.status = .running ∨ inst.status = .stopped) then
    .error "当前实例状态不允许升降级，仅运行中或已停止的实例可以升降级"
  else if inst.packageId ≠ some newPlan.packageId then .error "新方案必须属于同一套餐"
  else if !newPlan.isActive then .error "新方案已下架"
  else if newPlan.isSoldOut then .error "新方案已售罄"
  else if inst.packagePlanId = some newPlan.id then .error "不能切换到相同方案"
  else
    match calculatePlanChange db e.now instanceId inst newPlan with
    | none => .error "剩余时间不足 15 天，无法变更方案"
    | some changeResult =>
        match settlePlanChange db e userId instanceId inst.hostId changeResult.priceDiff with
        | .error message => .error message
        | .ok db =>
            if (db.instances instanceId).map (·.version) ≠ some inst.version then
              .error "实例状态已变更，请重试"
            else
              let db := db.updateInstance instanceId (·.changedTo newPlan)
              .ok (db.createBillingRecord
                { id := 0, instanceId, userId
                  type := if changeResult.isUpgrade then .upgrade else .downgrade
                  amount := if 0 < changeResult.priceDiff then changeResult.priceDiff else 0
                  periodStart := e.now, periodEnd := inst.expiresAt.getD 0, createdAt := e.now })

/-! ## What a charge posts -/

/-- Income of a host's owner for the instance `k`, if there is an owner who earns. -/
structure Earned (db db' : Db) (hostId k : ℕ) (income : Cents) : Prop
    extends SameOwners db db' where
  logs : (resolveHostedIncomeOwner db hostId none false = none ∧ db'.hostingLogs = db.hostingLogs) ∨
    (resolveHostedIncomeOwner db hostId none false ≠ none ∧
      ∃ log, db'.hostingLogs = db.hostingLogs ++ [log] ∧ log.type = .income ∧
        log.relatedId = some k ∧ log.amount = toUnits income)

/-- A charge for the instance `k`: what the user pays, what the owner earns and
what a coupon takes off. -/
structure ChargePosted (db db' : Db) (hostId k : ℕ) (charged income discount : Cents) : Prop where
  posted : ∃ logs records, PlainPosted db db' logs records ∧
    ∀ ids, consumedAmount ids records = if k ∈ ids then max 0 charged else 0
  earned : Earned db db' hostId k income
  usages : (discount = 0 ∧ db'.couponUsages = db.couponUsages) ∨
    ∃ usage, db'.couponUsages = db.couponUsages ++ [usage] ∧ usage.instanceId = some k ∧
      usage.discountAmount = discount

section Posted

variable {db db' db'' : Db} {e : Env} {userId instanceId hostId balanceLogId : ℕ} {amount : Cents}
  {inst : Instance} {d : Discounted} {charged income discount : Cents} {logs : List BalanceLog}

/-- A single charge record counts with its amount, if that is positive. -/
theorem consumedAmount_singleton (record : BillingRecord)
    (h : record.type = .newPurchase ∨ record.type = .renew ∨ record.type = .upgrade)
    (ids : List ℕ) :
    consumedAmount ids [record] = if record.instanceId ∈ ids then max 0 record.amount else 0 := by
  have htype : (record.type == .newPurchase || record.type == .renew || record.type == .upgrade)
      = true := by
    rcases h with h | h | h <;> rw [h] <;> rfl
  by_cases hmem : record.instanceId ∈ ids
  · rcases le_or_gt record.amount 0 with hle | hpos
    · simp [consumedAmount, BillingRecord.isCharge, hmem, htype, not_lt.mpr hle, hle]
    · simp [consumedAmount, BillingRecord.isCharge, hmem, htype, hpos, hpos.le]
  · simp [consumedAmount, hmem]

theorem chargeBalance_spec (h : chargeBalance db userId instanceId amount = .ok (db', balanceLogId)) :
    (∃ logs, PlainPosted db db' logs []) ∧ HostingFrame db db' ∧ SameHosting db db' := by
  unfold chargeBalance at h
  split at h
  · cases h
  rename_i user huser
  split at h
  · cases h
  · cases h
    have hhosting := SameHosting.updateUser db userId
      (fun u => { u with balance := u.balance - toUnits amount }) fun _ => rfl
    refine ⟨⟨_, .updateBalance db userId _ _ rfl (fun u => ?_) (by simp [huser]), ?_, by simp⟩,
      ⟨rfl, rfl, rfl, rfl, rfl, rfl, rfl⟩, hhosting.trans (.of_eq rfl rfl rfl)⟩
    · exact sub_eq_add_neg _ _
    · simp

theorem createBillingRecord_plain (db : Db) (record : BillingRecord) (h : record.type ≠ .refund) :
    PlainPosted db (db.createBillingRecord record) [] [{ record with id := db.nextId }] :=
  ⟨.createBillingRecord db record, by simp, by simpa using h⟩

theorem processHostingIncome_spec (db : Db) (e : Env) (hostId : ℕ) (income : Cents)
    (instanceId : ℕ) :
    let db' := processHostingIncome db e hostId income instanceId
    Posting db db' [] [] ∧ Earned db db' hostId instanceId income ∧
      db'.instances = db.instances ∧ db'.couponUsages = db.couponUsages := by
  intro db'
  cases hres : resolveHostedIncomeOwner db hostId none false with
  | none =>
      have hdb : db' = db := by simp only [db', processHostingIncome, hres]
      rw [hdb]
      exact ⟨.refl db, { SameOwners.refl db with logs := .inl ⟨hres, rfl⟩ }, rfl, rfl⟩
  | some owner =>
      have hdb : db' = recordHostingIncome db e owner income instanceId := by
        simp only [db', processHostingIncome, hres]
      rw [hdb]
      exact ⟨.of_eq rfl rfl rfl (Nat.le_succ _) rfl,
        { hosts := rfl, roles := fun _ => rfl
          logs := .inr ⟨by simp [hres], _, rfl, rfl, rfl, rfl⟩ }, rfl, rfl⟩

theorem reserveOfficialCouponUsage_spec (db : Db) (e : Env) (userId instanceId : ℕ)
    (type : CouponUsageType) (d : Discounted) :
    let db' := reserveOfficialCouponUsage db e userId instanceId type d
    Posting db db' [] [] ∧ SameHosting db db' ∧ db'.instances = db.instances ∧
      ((d.couponDiscount = 0 ∧ db'.couponUsages = db.couponUsages) ∨
        ∃ usage, db'.couponUsages = db.couponUsages ++ [usage] ∧
          usage.instanceId = some instanceId ∧ usage.discountAmount = d.couponDiscount) := by
  intro db'
  cases hcoupon : d.officialCoupon with
  | none =>
      have hdb : db' = db := by simp only [db', reserveOfficialCouponUsage, hcoupon]
      rw [hdb]
      exact ⟨.refl db, .refl db, rfl, .inl ⟨by simp [Discounted.couponDiscount, hcoupon], rfl⟩⟩
  | some couponId =>
      simp only [db', reserveOfficialCouponUsage, hcoupon, Discounted.couponDiscount]
      exact ⟨.of_eq rfl rfl rfl (Nat.le_succ _) rfl, .of_eq rfl rfl rfl, trivial,
        .inr ⟨_, rfl, rfl, rfl⟩⟩

/-- A debit that leaves hosting and coupons alone, then record, coupon and
income, with other writes between them: together a charge. -/
theorem ChargePosted.of_parts {db₁ db₂ : Db} {type : CouponUsageType} (record : BillingRecord)
    (hdebit : PlainPosted db db₁ logs []) (hhosting : SameHosting db db₁)
    (husages : db₁.couponUsages = db.couponUsages) (hinstance : record.instanceId = instanceId)
    (hamount : record.amount = d.finalAmount)
    (htype : record.type = .newPurchase ∨ record.type = .renew ∨ record.type = .upgrade)
    (hwrite : Untouched
      (reserveOfficialCouponUsage (db₁.createBillingRecord record) e userId instanceId type d) db₂) :
    ChargePosted db (processHostingIncome db₂ e hostId d.hostingIncome instanceId) hostId
      instanceId d.finalAmount d.hostingIncome d.couponDiscount := by
  have hplain : record.type ≠ .refund := by rcases htype with h | h | h <;> simp [h]
  obtain ⟨hcoupon, hchosting, -, hcusages⟩ := reserveOfficialCouponUsage_spec
    (db₁.createBillingRecord record) e userId instanceId type d
  obtain ⟨hincome, hearned, -, hiusages⟩ :=
    processHostingIncome_spec db₂ e hostId d.hostingIncome instanceId
  have hrecord : SameHosting db₁ (db₁.createBillingRecord record) := .of_eq rfl rfl rfl
  have hsame : SameHosting db db₂ := ((hhosting.trans hrecord).trans hchosting).trans hwrite.hosting
  refine
    { posted := ⟨_, _, (((hdebit.trans (createBillingRecord_plain db₁ record hplain)).trans
        (.of_posting hcoupon)).trans (.of_posting hwrite.posting)).trans (.of_posting hincome),
        fun ids => ?_⟩
      earned :=
        { hsame.toSameOwners.trans hearned.toSameOwners with
          logs := ?_ }
      usages := ?_ }
  · have hone := consumedAmount_singleton { record with id := db₁.nextId } htype ids
    simpa [hinstance, hamount] using hone
  · rw [← hsame.toSameOwners.resolve hostId, ← hsame.logs]
    exact hearned.logs
  · rw [hiusages, hwrite.usages, ← husages]
    exact hcusages

/-- A change that is recorded after its money has moved. -/
theorem ChargePosted.then_record (h : ChargePosted db db' hostId instanceId 0 income discount)
    (hkeep : Untouched db' db'') (record : BillingRecord) (hplain : record.type ≠ .refund)
    (hcharged : ∀ ids, consumedAmount ids [{ record with id := db''.nextId }]
      = if instanceId ∈ ids then max 0 charged else 0) :
    ChargePosted db (db''.createBillingRecord record) hostId instanceId charged income discount := by
  obtain ⟨logs, records, hposted, hconsumed⟩ := h.posted
  have hsame : SameHosting db' (db''.createBillingRecord record) :=
    hkeep.hosting.trans (.of_eq rfl rfl rfl)
  refine
    { posted := ⟨_, _, (hposted.trans (.of_posting hkeep.posting)).trans
        (createBillingRecord_plain db'' record hplain), fun ids => ?_⟩
      earned :=
        { h.earned.toSameOwners.trans hsame.toSameOwners with
          logs := ?_ }
      usages := ?_ }
  · rw [consumedAmount_append, List.append_nil, hconsumed ids, hcharged ids]
    simp
  · rw [hsame.logs]
    exact h.earned.logs
  · rw [show (db''.createBillingRecord record).couponUsages = db'.couponUsages from hkeep.usages]
    exact h.usages

end Posted

/-! ## What each of them does -/

section Operations

variable {db db' : Db} {e : Env} {userId instanceId hostId : ℕ} {inst : Instance} {d : Discounted}

theorem createInstance_spec {billingCycle : ℕ}
    (h : createInstance db e instanceId inst billingCycle d = .ok db') :
    db.instances instanceId = none ∧
      ChargePosted db db' inst.hostId instanceId d.finalAmount d.hostingIncome d.couponDiscount ∧
      ∃ row, row.hostId = inst.hostId ∧
        db'.instances = Function.update db.instances instanceId (some row) := by
  unfold createInstance at h
  split at h
  · cases h
  rename_i hnone
  split at h
  · cases h
  rename_i db₁ balanceLogId hcharge
  cases h
  obtain ⟨⟨logs, hlogs⟩, hframe, hhosting⟩ := chargeBalance_spec hcharge
  have hput : Untouched db₁ (db₁.setInstance instanceId
      (inst.purchased billingCycle (addMonths e.now billingCycle))) :=
    .of_eq rfl rfl rfl le_rfl rfl rfl rfl rfl
  refine ⟨hnone, .of_parts _ (by simpa using hlogs.trans (.of_posting hput.posting))
    (hhosting.trans hput.hosting) (hput.usages.trans hframe.couponUsages) rfl rfl (.inl rfl)
    (.refl _), inst.purchased billingCycle (addMonths e.now billingCycle), rfl, ?_⟩
  rw [(processHostingIncome_spec _ _ _ _ _).2.2.1, (reserveOfficialCouponUsage_spec _ _ _ _ _ _).2.2.1,
    ← hframe.instances]
  rfl

theorem retryPurchase_spec {purchaseMonths : ℕ}
    (h : retryPurchase db e instanceId purchaseMonths d = .ok db') :
    ∃ row, db.instances instanceId = some row ∧
      ChargePosted db db' row.hostId instanceId d.finalAmount d.hostingIncome d.couponDiscount ∧
      ∃ expiresAt, db'.instances = (db.updateInstance instanceId (·.extended expiresAt)).instances := by
  unfold retryPurchase at h
  split at h
  · cases h
  rename_i row hrow
  split at h
  · cases h
  rename_i db₁ balanceLogId hcharge
  cases h
  obtain ⟨⟨logs, hlogs⟩, hframe, hhosting⟩ := chargeBalance_spec hcharge
  refine ⟨row, hrow, .of_parts _ hlogs hhosting hframe.couponUsages rfl rfl (.inl rfl)
    (.updateInstance _ _ _), e.now + getCycleDays purchaseMonths * msPerDay, ?_⟩
  rw [(processHostingIncome_spec _ _ _ _ _).2.2.1]
  simp only [Db.updateInstance, (reserveOfficialCouponUsage_spec _ _ _ _ _ _).2.2.1,
    Db.createBillingRecord, hframe.instances]

theorem performRenewal_spec {months : ℕ}
    (h : performRenewal db e userId instanceId inst months d = .ok db') :
    (∃ row, db.instances instanceId = some row ∧ row.isRenewable = true) ∧
      ChargePosted db db' inst.hostId instanceId d.finalAmount d.hostingIncome d.couponDiscount ∧
      ∃ newExpiresAt, db'.instances
        = (db.updateInstance instanceId (·.renewed newExpiresAt)).instances := by
  unfold performRenewal at h
  obtain ⟨-, h⟩ := ok_of_guard h
  obtain ⟨-, h⟩ := ok_of_guard h
  obtain ⟨-, h⟩ := ok_of_guard h
  split at h
  · cases h
  rename_i row hrow
  split at h
  · cases h
  rename_i hguard
  rw [not_or] at hguard
  split at h
  · cases h
  rename_i db₁ balanceLogId hcharge
  cases h
  obtain ⟨⟨logs, hlogs⟩, hframe, hhosting⟩ := chargeBalance_spec hcharge
  have hwrite : Untouched db₁ (db₁.updateInstance instanceId
      (·.renewed (addMonths (max (inst.expiresAt.getD e.now) e.now) months))) :=
    .updateInstance db₁ instanceId _
  refine ⟨⟨row, hrow, by simpa using hguard.2⟩,
    .of_parts _ (by simpa using hlogs.trans (.of_posting hwrite.posting))
      (hhosting.trans hwrite.hosting) (hwrite.usages.trans hframe.couponUsages) rfl rfl
      (.inr (.inl rfl)) (.refl _),
    addMonths (max (inst.expiresAt.getD e.now) e.now) months, ?_⟩
  rw [(processHostingIncome_spec _ _ _ _ _).2.2.1, (reserveOfficialCouponUsage_spec _ _ _ _ _ _).2.2.1]
  simp only [Db.updateInstance, Db.createBillingRecord, hframe.instances]

/-- The refund of a downgrade posts one refund, and takes income back only from
a present owner. -/
theorem downgradeRefund_spec {user : User} {refundAmount : Cents} (huser : (db.users userId).isSome)
    (h : downgradeRefund db e userId instanceId hostId user refundAmount = .ok db') :
    HostingFrame db db' ∧ (∃ log record logs,
      RefundPosted db db' userId instanceId refundAmount log record logs []) ∧
      HostingTaken db db' hostId instanceId
        (calculateHostedRefundAmount db e.now instanceId refundAmount true) := by
  unfold downgradeRefund at h
  obtain ⟨log, hlog, hid, htype, hlogUser, hamount, hframe, hhosting⟩ :=
    creditRefund_posting instanceId refundAmount
      (roundUnits (user.balance + toUnits refundAmount - toUnits refundAmount))
      (user.balance + toUnits refundAmount) huser
  dsimp only at h
  generalize creditRefund db userId instanceId refundAmount
    (roundUnits (user.balance + toUnits refundAmount - toUnits refundAmount))
    (user.balance + toUnits refundAmount) = credited at h hlog hid hframe hhosting
  obtain ⟨db₁, balanceLogId⟩ := credited
  dsimp only at h hframe hhosting
  rw [calculateHostedRefundAmount_congr (by simpa using hlog.billingRecords) hframe.couponUsages
    hlog.history] at h
  generalize calculateHostedRefundAmount db e.now instanceId refundAmount true = hosted at h ⊢
  obtain ⟨record, hrecord, hrtype, hrinst, hramount, hrlog, hrframe, hrhosting⟩ :=
    recordRefund_posting db₁ e userId instanceId refundAmount balanceLogId
  generalize recordRefund db₁ e userId instanceId refundAmount balanceLogId = db₂
    at h hrecord hrframe hrhosting
  have hplain : (∃ logs, PlainPosted db₂ db' logs []) ∧ HostingFrame db₂ db' ∧
      HostingTaken db₂ db' hostId instanceId hosted := by
    split at h
    · split at h
      · cases h
      · rename_i hdeduct
        cases h
        exact deductHostingBalance_plain hdeduct
    · cases h
      exact ⟨⟨[], .of_posting (.refl _)⟩, .refl _, .refl _ _ _ _⟩
  obtain ⟨⟨logs, hlogs⟩, hdframe, htaken⟩ := hplain
  refine ⟨(hframe.trans hrframe).trans hdframe, ⟨log, record, logs, ?_⟩,
    htaken.of_same (hhosting.trans hrhosting)⟩
  exact
    { posting := by simpa using (hlog.trans hrecord).trans hlogs.posting
      user := huser
      logType := htype
      logUser := hlogUser
      logAmount := hamount
      recordType := hrtype
      recordInstance := hrinst
      recordAmount := hramount
      recordLog := by rw [hrlog, hid]
      logs := hlogs.logs
      records := by simp }

/-- What a plan change costs or pays back: a charge is income of the same
amount, and a refund is the difference, up to the cap. -/
theorem settlePlanChange_spec {priceDiff : Cents}
    (h : settlePlanChange db e userId instanceId hostId priceDiff = .ok db') :
    db'.instances = db.instances ∧
      ((0 < priceDiff ∧ ChargePosted db db' hostId instanceId 0 priceDiff 0) ∨
        (priceDiff ≤ 0 ∧ min (-priceDiff) (getMaxRefundable db instanceId) ≤ 0 ∧ db' = db) ∨
        priceDiff < 0 ∧ ∃ r, 0 < r ∧ r = min (-priceDiff) (getMaxRefundable db instanceId) ∧
          (∃ log record logs, RefundPosted db db' userId instanceId r log record logs []) ∧
          db'.couponUsages = db.couponUsages ∧
          HostingTaken db db' hostId instanceId
            (calculateHostedRefundAmount db e.now instanceId r true)) := by
  unfold settlePlanChange at h
  split at h
  · cases h
  rename_i user huser
  split at h
  · rename_i hpos
    split at h
    · cases h
    · rename_i db₁ balanceLogId hcharge
      cases h
      obtain ⟨⟨logs, hlogs⟩, hframe, hhosting⟩ := chargeBalance_spec hcharge
      obtain ⟨hincome, hearned, hinstances, husages⟩ :=
        processHostingIncome_spec db₁ e hostId priceDiff instanceId
      refine ⟨hinstances.trans hframe.instances, .inl ⟨hpos, ?_⟩⟩
      refine
        { posted := ⟨_, _, hlogs.trans (.of_posting hincome), by simp [consumedAmount]⟩
          earned :=
            { hhosting.toSameOwners.trans hearned.toSameOwners with
              logs := ?_ }
          usages := .inl ⟨rfl, husages.trans hframe.couponUsages⟩ }
      rw [← hhosting.toSameOwners.resolve hostId, ← hhosting.logs]
      exact hearned.logs
  · rename_i hpos
    dsimp only at h
    split at h
    · rename_i hrefund
      obtain ⟨hframe, hposted, htaken⟩ := downgradeRefund_spec (by simp [huser]) h
      exact ⟨hframe.instances, .inr (.inr ⟨hrefund.1, _, hrefund.2, by rw [abs_of_neg hrefund.1],
        hposted, hframe.couponUsages, htaken⟩)⟩
    · rename_i hrefund
      cases h
      have hle := not_lt.mp hpos
      refine ⟨rfl, .inr (.inl ⟨hle, ?_, rfl⟩)⟩
      rcases hle.lt_or_eq with hneg | hzero
      · rw [← abs_of_neg hneg]
        exact not_lt.mp fun hcap => hrefund ⟨hneg, hcap⟩
      · exact (min_le_left _ _).trans (neg_nonpos.mpr hzero.ge)

/-- A plan change that goes through: it settles the difference, rewrites the row and adds a
record. -/
theorem performPlanChange_ok {newPlan : PackagePlan}
    (h : performPlanChange db e userId instanceId inst newPlan = .ok db') :
    (inst.status = .running ∨ inst.status = .stopped) ∧
      ∃ changeResult db₁, calculatePlanChange db e.now instanceId inst newPlan = some changeResult ∧
        settlePlanChange db e userId instanceId inst.hostId changeResult.priceDiff = .ok db₁ ∧
        db' = (db₁.updateInstance instanceId (·.changedTo newPlan)).createBillingRecord
          { id := 0, instanceId, userId
            type := if changeResult.isUpgrade then .upgrade else .downgrade
            amount := if 0 < changeResult.priceDiff then changeResult.priceDiff else 0
            periodStart := e.now, periodEnd := inst.expiresAt.getD 0, createdAt := e.now } := by
  unfold performPlanChange at h
  obtain ⟨-, h⟩ := ok_of_guard h
  obtain ⟨hstatus, h⟩ := ok_of_guard h
  obtain ⟨-, h⟩ := ok_of_guard h
  obtain ⟨-, h⟩ := ok_of_guard h
  obtain ⟨-, h⟩ := ok_of_guard h
  obtain ⟨-, h⟩ := ok_of_guard h
  split at h
  · cases h
  rename_i changeResult hresult
  split at h
  · cases h
  rename_i db₁ hsettle
  split at h
  · cases h
  · cases h
    exact ⟨not_not.mp hstatus, changeResult, db₁, hresult, hsettle, rfl⟩

/-- What a plan change does: it charges or refunds, rewrites the row and adds a
record of the change. -/
theorem performPlanChange_spec {newPlan : PackagePlan}
    (h : performPlanChange db e userId instanceId inst newPlan = .ok db') :
    (inst.status = .running ∨ inst.status = .stopped) ∧
      db'.instances = (db.updateInstance instanceId (·.changedTo newPlan)).instances ∧
      (QuietPosted db db' ∨
        (∃ charged income, 0 ≤ charged ∧ charged ≤ income ∧
          ChargePosted db db' inst.hostId instanceId charged income 0) ∨
        ∃ changeResult r, calculatePlanChange db e.now instanceId inst newPlan = some changeResult ∧
          changeResult.priceDiff < 0 ∧ 0 < r ∧ r ≤ -changeResult.priceDiff ∧
          r ≤ getMaxRefundable db instanceId ∧
          RefundPaid db db' inst.hostId userId instanceId r
            (calculateHostedRefundAmount db e.now instanceId r true)) := by
  obtain ⟨hstatus, changeResult, db₁, hresult, hsettle, rfl⟩ := performPlanChange_ok h
  obtain ⟨hinstances, hposted⟩ := settlePlanChange_spec hsettle
  refine ⟨hstatus, by simp only [Db.createBillingRecord, Db.updateInstance, hinstances], ?_⟩
  generalize hrecord : ({ id := 0, instanceId, userId
                          type := if changeResult.isUpgrade then .upgrade else .downgrade
                          amount := if 0 < changeResult.priceDiff then changeResult.priceDiff else 0
                          periodStart := e.now, periodEnd := inst.expiresAt.getD 0
                          createdAt := e.now } : BillingRecord) = record
  have hplain : record.type ≠ .refund := by
    rw [← hrecord]
    dsimp only
    split <;> simp
  have hkeep : Untouched db₁ (db₁.updateInstance instanceId (·.changedTo newPlan)) :=
    .updateInstance db₁ instanceId _
  -- without a charge the record of the change has the amount zero
  have hzero (hdiff : changeResult.priceDiff ≤ 0) (id : ℕ) :
      ({ record with id } : BillingRecord).isCharge = false := by
    simp [← hrecord, BillingRecord.isCharge, not_lt.mpr hdiff]
  rcases hposted with ⟨hpos, hcharge⟩ | ⟨hdiff, -, rfl⟩ |
    ⟨hdiff, r, hpos, hr, ⟨log, refund, logs, hposted⟩, husages, htaken⟩
  · cases hupgrade : changeResult.isUpgrade with
    | true =>
        refine .inr (.inl ⟨changeResult.priceDiff, _, hpos.le, le_rfl,
          hcharge.then_record hkeep record hplain fun ids => ?_⟩)
        rw [consumedAmount_singleton _ (.inr (.inr (by simp [← hrecord, hupgrade])))]
        simp [← hrecord, hpos]
    | false =>
        -- dearer in total though cheaper by the day: charged, but not counted as consumption
        refine .inr (.inl ⟨0, _, le_rfl, hpos.le,
          hcharge.then_record hkeep record hplain fun ids => ?_⟩)
        simp [consumedAmount, BillingRecord.isCharge, ← hrecord, hupgrade]
  · refine .inl
      { posted := ⟨_, _, (PlainPosted.of_posting hkeep.posting).trans
          (createBillingRecord_plain _ record hplain), ?_⟩
        hosting := hkeep.hosting.trans (.of_eq rfl rfl rfl)
        usages := List.Sublist.refl _ }
    simpa using hzero hdiff _
  · refine .inr (.inr ⟨changeResult, r, hresult, hdiff, hpos, hr.trans_le (min_le_left _ _),
      hr.trans_le (min_le_right _ _),
      { posted := ⟨log, refund, _, _, hposted.trans_plain ((PlainPosted.of_posting
          hkeep.posting).trans (createBillingRecord_plain _ record hplain)), ?_⟩
        taken := htaken.then_same (hkeep.hosting.trans (.of_eq rfl rfl rfl))
        usages := ?_ }⟩)
    · simpa using hzero hdiff.le _
    · rw [show (((db₁.updateInstance instanceId (·.changedTo newPlan)).createBillingRecord
        record).couponUsages) = db.couponUsages from husages]

end Operations

end Incudal
