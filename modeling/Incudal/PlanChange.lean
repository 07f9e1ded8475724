/-
# `PlanChange` — the two ways to a higher plan

A user changes the plan of an instance by `POST /instances/:id/change-plan`, an
administrator upgrades it by `POST /admin/instances/:id/upgrade-plan`.  The two
were written apart from each other.  Given a plan that both accept they charge
the same, credit the owner of the host with the same and write the same columns
(`performPlanChange_posted`, `adminUpgradeTransaction_posted`,
`upgradedColumns_eq`).

They differ in the counters of the host.  The user's change moves them by the
difference between the new plan and what the instance has, ports included; the
administrator's by the difference between the two plans, ports left out.  So
they agree exactly for an instance that has what its plan says and keeps its
port limit (`plan_change_agrees_iff`).
-/
import Incudal.Charges
import Incudal.HostReservations
import Incudal.HostedRecovery
import Incudal.TrafficCounters

namespace Incudal

/-! ## Plans and rows -/

/-- A plan with all that a change of plan writes. -/
structure Plan extends PackagePlan where
  billingMode : InstanceBillingMode := .package
  resources : PlanResources
  snapshotLimit : ℕ
  backupLimit : ℕ
  siteLimit : ℕ
  swapSize : ℤ := 0
  trafficLimit : ℕ
  trafficLimitSpeed : String := "1Mbit"
  trafficBillingMode : TrafficBillingMode := .package
  trafficUnitPrice : ℕ := 0
deriving DecidableEq, Repr

/-- The limits of an instance that a plan sets, next to resources and traffic. -/
structure InstanceLimits where
  snapshotLimit : Option ℕ
  backupLimit : Option ℕ
  siteLimit : Option ℕ
  swapEnabled : Bool := false
  swapSize : Option ℤ := none
  limitsIngress : Option String := none
  limitsEgress : Option String := none
deriving DecidableEq, Repr

/-- The database, and one instance with its host: the billing columns of the
instance are in the database, the others here. -/
structure PlanWorld where
  db : Db
  plans : ℕ → Option Plan
  isVmPackage : ℕ → Bool := fun _ => false
  /-- `trafficMultiplier` of the binding of a package to a host -/
  trafficMultiplier : ℕ → ℕ → Option ℚ := fun _ _ => none
  /-- an unpaid traffic bill of the instance -/
  pendingTrafficBill : Bool := false
  inst : HostedInstance
  limits : InstanceLimits
  traffic : TrafficInstance
  host : HostCapacity

/-! ## Limits that follow from a plan -/

/-- `normalizeConfiguredSwapSize`. -/
def normalizeConfiguredSwapSize (sizeMb : Option ℤ) : Option ℤ := sizeMb.map (max 0)

/-- `shouldSyncInstanceSwapSizeWithPlan`. -/
def shouldSyncInstanceSwapSizeWithPlan (instanceSizeMb previousPlanSizeMb : Option ℤ) : Bool :=
  match normalizeConfiguredSwapSize instanceSizeMb with
  | none => true
  | some size => size == (normalizeConfiguredSwapSize previousPlanSizeMb).getD 0

/-- `normalizeTrafficMultiplier`, in thousandths. -/
def normalizeTrafficMultiplier : Option ℚ → Except String ℤ
  | none => .ok 1000
  | some numeric =>
      if numeric < 1 / 1000 ∨ 100 < numeric then
        .error "Traffic multiplier must be at least 0.001 and no more than 100"
      else .ok ⌊numeric * 1000 + 1 / 2⌋

/-- `resolveInstanceTrafficLimitForHost`. -/
def PlanWorld.resolveInstanceTrafficLimitForHost (w : PlanWorld) (packageId : Option ℕ)
    (hostId baseTrafficLimit : ℕ) : Except String ℕ :=
  match packageId with
  | none | some 0 => .ok baseTrafficLimit
  | some packageId =>
      match normalizeTrafficMultiplier (w.trafficMultiplier packageId hostId) with
      | .error message => .error message
      | .ok scaled => .ok (baseTrafficLimit * scaled.toNat / 1000)

/-- `calculateInstanceTrafficStatus`. -/
def calculateInstanceTrafficStatus (used : ℕ) (limit : Option ℕ) : TrafficStatus :=
  if limit.any fun limit => decide (limit ≤ used) then .limited else .normal

/-- `calculatePlanChangeSettledBytes`. -/
def calculatePlanChangeSettledBytes (previous : TrafficInstance)
    (newBillingMode : TrafficBillingMode) (newMonthlyTrafficLimit : Option ℕ) : ℕ :=
  if newBillingMode ≠ .usage then 0
  else
    let included := newMonthlyTrafficLimit.getD 0
    let newOverage := previous.monthlyTrafficUsed - included
    if previous.trafficBillingMode ≠ .usage then newOverage
    else
      let oldIncluded := previous.monthlyTrafficLimit.getD 0
      let paidThroughUsage := oldIncluded + previous.trafficSettledBytes
      min (paidThroughUsage - included) newOverage

/-- The units of `INCUS_BANDWIDTH_PATTERN`, in lower case. -/
def bandwidthUnits : List String :=
  ["bit", "kbit", "mbit", "gbit", "tbit", "b", "kb", "mb", "gb", "tb"]

/-- `INCUS_BANDWIDTH_PATTERN`: digits, perhaps a fraction, and a unit. -/
def matchesBandwidth (speed : String) : Bool :=
  let whole := speed.toList.takeWhile Char.isDigit
  let rest := speed.toList.dropWhile Char.isDigit
  let isUnit (cs : List Char) := (String.ofList (cs.map Char.toLower)) ∈ bandwidthUnits
  !whole.isEmpty && (isUnit rest ||
    match rest with
    | '.' :: decimals =>
        !(decimals.takeWhile Char.isDigit).isEmpty && isUnit (decimals.dropWhile Char.isDigit)
    | _ => false)

/-- `normalizePlanTrafficLimitSpeed`. -/
def normalizePlanTrafficLimitSpeed (trafficLimitSpeed : String) : Option String :=
  if trafficLimitSpeed = "" ∨ trafficLimitSpeed = "0" then none
  else if trafficLimitSpeed.toList.all Char.isDigit then
    let bytes := trafficLimitSpeed.toList.foldl (fun n c => 10 * n + (c.toNat - '0'.toNat)) 0
    let mbps := bytes / (1024 * 1024)
    if 0 < mbps then some s!"{mbps}Mbit" else none
  else if matchesBandwidth trafficLimitSpeed then some trafficLimitSpeed
  else none

/-! ## The user's change -/

/-- What a change does to an instance besides its billing columns. -/
structure PlanColumns where
  inst : HostedInstance
  limits : InstanceLimits
  traffic : TrafficInstance
deriving DecidableEq, Repr

/-- What the administrator's upgrade adds to the counters: the difference of the plans, no ports. -/
def Plan.deltaTo (currentPlan newPlan : Plan) : Resources where
  cpu := newPlan.resources.cpu - currentPlan.resources.cpu
  memory := newPlan.resources.memory - currentPlan.resources.memory
  disk := newPlan.resources.disk - currentPlan.resources.disk

/-- The columns that `performPlanChange` writes. -/
def PlanWorld.changedColumns (w : PlanWorld) (now : Time) (oldPlan newPlan : Plan)
    (monthlyTrafficLimit : ℕ) : PlanColumns :=
  let isVmPackage := w.isVmPackage newPlan.packageId
  { inst := w.inst.changedPlan newPlan.resources
    limits :=
      { snapshotLimit := some newPlan.snapshotLimit
        backupLimit := some newPlan.backupLimit
        siteLimit := some newPlan.siteLimit
        swapEnabled := if isVmPackage then false else w.limits.swapEnabled
        swapSize :=
          if isVmPackage then none
          else if shouldSyncInstanceSwapSizeWithPlan w.limits.swapSize (some oldPlan.swapSize) then
            some newPlan.swapSize
          else w.limits.swapSize
        limitsIngress :=
          if newPlan.trafficBillingMode = .usage then none
          else normalizePlanTrafficLimitSpeed newPlan.trafficLimitSpeed
        limitsEgress :=
          if newPlan.trafficBillingMode = .usage then none
          else normalizePlanTrafficLimitSpeed newPlan.trafficLimitSpeed }
    traffic :=
      { w.traffic with
          monthlyTrafficLimit := some monthlyTrafficLimit
          trafficStatus :=
            if newPlan.trafficBillingMode = .usage then .normal
            else calculateInstanceTrafficStatus w.traffic.monthlyTrafficUsed monthlyTrafficLimit
          trafficBillingMode := newPlan.trafficBillingMode
          trafficUnitPrice := newPlan.trafficUnitPrice
          trafficSettledBytes := calculatePlanChangeSettledBytes w.traffic
            newPlan.trafficBillingMode monthlyTrafficLimit
          nextTrafficBillingAt :=
            if newPlan.trafficBillingMode = .usage then some (now + 60 * 60 * 1000) else none } }

/-- The first of the four checks against the host that fails, with its message. -/
def HostCapacity.planRefusal (host : HostCapacity) (delta : Resources) : Option String :=
  if 0 < delta.cpu ∧ host.cpuAllowanceMax.getD 0 < host.used.cpu + delta.cpu then
    some "宿主机 CPU 资源不足"
  else if 0 < delta.memory ∧ host.memoryMax.getD 0 < host.used.memory + delta.memory then
    some "宿主机内存资源不足"
  else if 0 < delta.disk ∧ host.storageSize.getD 0 * 1024 < host.used.disk + delta.disk then
    some "宿主机磁盘资源不足"
  else if 0 < delta.portCount ∧ host.natPortsTotal < host.used.portCount + delta.portCount then
    some "宿主机 NAT 端口资源不足"
  else none

namespace PlanWorld

variable (w : PlanWorld) (e : Env)

/-- The instance leaves billing by usage with a bill that is not paid. -/
def leavesUnpaidTraffic (newPlan : Plan) : Bool :=
  w.traffic.trafficBillingMode == .usage && newPlan.trafficBillingMode != .usage
    && w.pendingTrafficBill

/-- What the route of a change checks before it looks at the host: it finds the
row, the old plan and the new one. -/
def changeParties (userId newPlanId : ℕ) : Except String (Instance × Plan × Plan) :=
  match w.db.instances w.inst.id with
  | none => .error "INSTANCE_NOT_FOUND"
  | some inst =>
      if inst.userId ≠ userId then .error "FORBIDDEN"
      else if !inst.isPackageInstance then .error "免费实例不支持升降级"
      else
        match w.plans newPlanId with
        | none => .error "方案不存在"
        | some newPlan =>
            if newPlan.billingMode ≠ .package then
              .error "按小时计费方案不能通过固定周期升降级入口切换"
            else if inst.packageId ≠ some newPlan.packageId then .error "新方案必须属于同一套餐"
            else if inst.packagePlanId = some newPlanId then .error "不能切换到相同方案"
            else if !newPlan.isActive then .error "该方案已下架"
            else if newPlan.isSoldOut then .error "该方案已售罄"
            else if ¬(inst.status = .running ∨ inst.status = .stopped) then
              .error "当前实例状态不允许升级，仅运行中或已停止的实例可以操作"
            else
              match inst.packagePlanId.bind w.plans with
              -- `calculatePlanChange` throws without the old plan
              | none => .error "原方案不存在"
              | some oldPlan =>
                  let oldDailyPrice := calculateDailyPrice (inst.billingPrice.getD 0)
                    (match inst.billingCycle with | some 0 => 1 | some cycle => cycle | none => 1)
                  let newDailyPrice :=
                    calculateDailyPrice ((newPlan.price : ℚ) / 100) newPlan.billingCycle
                  if newDailyPrice ≤ oldDailyPrice then .error "不支持降级，只能升级到更高配置的方案"
                  else .ok (inst, oldPlan, newPlan)

/-- `POST /instances/:id/change-plan`; `incusAccepts` is what Incus says to the new
resources.  What a failure has reserved on the host it gives back. -/
def changePlan (userId newPlanId : ℕ) (incusAccepts : Bool) : Except String PlanWorld :=
  match w.changeParties userId newPlanId with
  | .error message => .error message
  | .ok (inst, oldPlan, newPlan) =>
      let delta := w.inst.planDelta newPlan.resources
      if newPlan.resources.disk < w.inst.disk then
        .error "不支持缩小实例磁盘，请选择磁盘不小于当前配置的方案"
      else
        match w.host.planRefusal delta with
        | some message => .error message
        | none =>
            if !incusAccepts then .error "升降级失败"
            else if w.leavesUnpaidTraffic newPlan then
              .error "存在未支付流量账单，结清后才能切换到套餐流量计费"
            -- the record of the change needs the end of the period
            else if inst.expiresAt = none then .error "periodEnd must not be null"
            else
              match w.resolveInstanceTrafficLimitForHost inst.packageId inst.hostId
                  newPlan.trafficLimit with
              | .error message => .error message
              | .ok monthlyTrafficLimit =>
                  match performPlanChange w.db e userId w.inst.id inst newPlan.toPackagePlan with
                  | .error message => .error message
                  | .ok db =>
                      let columns := w.changedColumns e.now oldPlan newPlan monthlyTrafficLimit
                      .ok { w with
                        db
                        inst := columns.inst
                        limits := columns.limits
                        traffic := columns.traffic
                        host := w.host.withUsed (w.host.used + delta) }

end PlanWorld

/-! ## The administrator's upgrade -/

/-- `calculatePlanChange` without a least number of days. -/
def upgradeQuote (db : Db) (now : Time) (instanceId : ℕ) (inst : Instance) (newPlan : PackagePlan) :
    PlanChangeCalcResult :=
  let calcResult := calculatePlanChangeDetails (inst.billingPrice.getD 0)
    (match inst.billingCycle with | some 0 => 1 | some cycle => cycle | none => 1)
    ((newPlan.price : ℚ) / 100) newPlan.billingCycle
    (calculateRemainingDaysPrecise (inst.expiresAt.getD 0) now) (boundAffDiscountRate db instanceId)
  { calcResult with
    priceDiff :=
      if calcResult.priceDiff < 0 then -min |calcResult.priceDiff| (getMaxRefundable db instanceId)
      else calcResult.priceDiff }

/-- The debit of a price, if there is one to pay. -/
def Db.debited (db : Db) (userId : ℕ) (amount : Cents) : Db :=
  if 0 < amount then
    db.updateUser userId fun u => { u with balance := u.balance - toUnits amount }
  else db

/-- The transaction of the upgrade, as far as it is about money and billing columns. -/
def adminUpgradeTransaction (db : Db) (e : Env) (instanceId : ℕ) (inst : Instance)
    (newPlan : PackagePlan) (priceDifference : Cents) (userBalance : Units) : Except String Db :=
  if 0 < priceDifference ∧ userBalance < toUnits priceDifference then
    .error "INSUFFICIENT_BALANCE_OR_CONCURRENT_UPDATE"
  else
    let balanceAfter := userBalance - toUnits priceDifference
    let db := db.debited inst.userId priceDifference
    let balanceBefore :=
      if 0 < priceDifference then roundUnits (balanceAfter + toUnits priceDifference)
      else userBalance
    let (db, balanceLogId) := db.createBalanceLog
      { id := 0, userId := inst.userId, type := .consume, amount := -toUnits priceDifference
        balanceBefore, balanceAfter, instanceId := some instanceId }
    let db := db.updateInstance instanceId (·.changedTo newPlan)
    let db := db.createBillingRecord
      { id := 0, instanceId, userId := inst.userId, type := .upgrade, amount := priceDifference
        periodStart := e.now, periodEnd := inst.expiresAt.getD e.now
        balanceLogId := some balanceLogId, createdAt := e.now }
    .ok (processHostingIncome db e inst.hostId priceDifference instanceId)

namespace PlanWorld

variable (w : PlanWorld) (e : Env)

/-- The columns that the upgrade writes. -/
def upgradedColumns (now : Time) (packageId : Option ℕ) (currentPlan newPlan : Plan)
    (monthlyTrafficLimit : ℕ) : PlanColumns :=
  let isVmPackage := packageId.any w.isVmPackage
  { inst := w.inst.changedPlan newPlan.resources
    limits :=
      { snapshotLimit := some newPlan.snapshotLimit
        backupLimit := some newPlan.backupLimit
        siteLimit := some newPlan.siteLimit
        swapEnabled := if isVmPackage then false else w.limits.swapEnabled
        swapSize :=
          if isVmPackage then none
          else if shouldSyncInstanceSwapSizeWithPlan w.limits.swapSize
              (some currentPlan.swapSize) then
            some newPlan.swapSize
          else w.limits.swapSize
        limitsIngress :=
          if newPlan.trafficBillingMode = .usage then none
          else normalizePlanTrafficLimitSpeed newPlan.trafficLimitSpeed
        limitsEgress :=
          if newPlan.trafficBillingMode = .usage then none
          else normalizePlanTrafficLimitSpeed newPlan.trafficLimitSpeed }
    traffic :=
      { w.traffic with
          monthlyTrafficLimit := some monthlyTrafficLimit
          trafficStatus :=
            if newPlan.trafficBillingMode = .usage then .normal
            else calculateInstanceTrafficStatus w.traffic.monthlyTrafficUsed monthlyTrafficLimit
          trafficBillingMode := newPlan.trafficBillingMode
          trafficUnitPrice := newPlan.trafficUnitPrice
          trafficSettledBytes := calculatePlanChangeSettledBytes w.traffic
            newPlan.trafficBillingMode monthlyTrafficLimit
          nextTrafficBillingAt :=
            if newPlan.trafficBillingMode = .usage then some (now + 60 * 60 * 1000) else none } }

/-- What the route of an upgrade checks before its transaction: it finds the row,
the current plan and the new one. -/
def upgradeParties (newPlanId : ℕ) : Except String (Instance × Plan × Plan) :=
  match w.db.instances w.inst.id with
  | none => .error "实例不存在"
  | some inst =>
      match inst.packagePlanId.bind w.plans with
      | none => .error "该实例不是付费实例，无法切换方案"
      | some currentPlan =>
          if !inst.isPackageInstance then .error "该实例不是付费实例，无法切换方案"
          else if inst.status = .deleted then .error "实例已删除"
          else
            match w.plans newPlanId with
            | none => .error "新方案不存在"
            | some newPlan =>
                if newPlan.billingMode ≠ .package then
                  .error "按小时计费方案不能通过固定周期升降级入口切换"
                else if !newPlan.isActive then .error "新方案已下架"
                else if newPlan.isSoldOut then .error "新方案已售罄"
                else if inst.packageId ≠ some newPlan.packageId then .error "新方案不属于同一套餐"
                else .ok (inst, currentPlan, newPlan)

/-- `POST /admin/instances/:id/upgrade-plan`. -/
def adminUpgradePlan (newPlanId : ℕ) : Except String PlanWorld :=
  match w.upgradeParties newPlanId with
  | .error message => .error message
  | .ok (inst, currentPlan, newPlan) =>
      let changeQuote := upgradeQuote w.db e.now w.inst.id inst newPlan.toPackagePlan
      if calculateRemainingDaysPrecise (inst.expiresAt.getD 0) e.now ≤ 0 then
        .error "实例已过期，请先续费后再升级方案"
      else if !changeQuote.isUpgrade then .error "只能升级到更高价格的方案"
      else
        match w.db.users inst.userId with
        | none => .error "TypeError"
        | some user =>
            if user.balance < toUnits changeQuote.priceDiff then .error "用户余额不足"
            else if w.leavesUnpaidTraffic newPlan then .error "PENDING_TRAFFIC_BILL"
            else
              match w.resolveInstanceTrafficLimitForHost inst.packageId inst.hostId
                  newPlan.trafficLimit with
              | .error message => .error message
              | .ok monthlyTrafficLimit =>
                  match adminUpgradeTransaction w.db e w.inst.id inst newPlan.toPackagePlan
                      changeQuote.priceDiff user.balance with
                  | .error message => .error message
                  | .ok db =>
                      let columns := w.upgradedColumns e.now inst.packageId currentPlan newPlan
                        monthlyTrafficLimit
                      .ok { w with
                        db
                        inst := columns.inst
                        limits := columns.limits
                        traffic := columns.traffic
                        host := w.host.withUsed (w.host.used + currentPlan.deltaTo newPlan) }

end PlanWorld

/-! ## What an upgrade does -/

/-- A billing record without its id and the link to the balance log. -/
def BillingRecord.content (record : BillingRecord) : BillingRecord :=
  { record with id := 0, balanceLogId := none }

/-- What a higher plan costs: a debit, a record, income of the host's owner, and
the billing columns of the plan. -/
structure UpgradePosted (db db' : Db) (e : Env) (instanceId : ℕ) (inst : Instance)
    (newPlan : PackagePlan) (amount : Cents) : Prop where
  users : db'.users = (db.debited inst.userId amount).users
  billingRecords : db'.billingRecords.map BillingRecord.content
    = db.billingRecords.map BillingRecord.content ++
      [{ id := 0, instanceId, userId := inst.userId, type := .upgrade, amount
         periodStart := e.now, periodEnd := inst.expiresAt.getD 0, createdAt := e.now }]
  hostingIncome : ∀ owner ids, hostingIncomeOf owner ids db'.hostingLogs
    = hostingIncomeOf owner ids db.hostingLogs
      + if resolveHostedIncomeOwner db inst.hostId none false = some owner ∧ instanceId ∈ ids
        then toUnits amount else 0
  instances : db'.instances = (db.updateInstance instanceId (·.changedTo newPlan)).instances

section Money

variable {db db' : Db} {e : Env} {i userId hostId : ℕ} {inst : Instance} {newPlan : PackagePlan}
  {now : Time} {amount : Cents}

/-- Both ways take the price from the same computation. -/
theorem upgradeQuote_eq {changeResult : PlanChangeCalcResult}
    (h : calculatePlanChange db now i inst newPlan = some changeResult) :
    changeResult = upgradeQuote db now i inst newPlan := by
  unfold calculatePlanChange at h
  dsimp only at h
  split at h
  · cases h
  · exact (Option.some.inj h).symm

/-- A higher price a day costs something or nothing, but pays nothing back. -/
theorem calculatePlanChangeDetails_nonneg {oldPrice newPrice remainingDays discountRate : ℚ}
    {oldBillingCycle newBillingCycle : ℕ} (hdays : 0 ≤ remainingDays)
    (hup : (calculatePlanChangeDetails oldPrice oldBillingCycle newPrice newBillingCycle
      remainingDays discountRate).isUpgrade = true) :
    0 ≤ (calculatePlanChangeDetails oldPrice oldBillingCycle newPrice newBillingCycle
      remainingDays discountRate).priceDiff := by
  simp only [calculatePlanChangeDetails, decide_eq_true_eq] at hup ⊢
  exact sub_nonneg.mpr (Rounding.halfAway_mono (mul_le_mul_of_nonneg_right hup.le hdays))

theorem upgradeQuote_nonneg (hup : (upgradeQuote db now i inst newPlan).isUpgrade = true) :
    0 ≤ (upgradeQuote db now i inst newPlan).priceDiff := by
  have hdays : 0 ≤ calculateRemainingDaysPrecise (inst.expiresAt.getD 0) now := le_max_left _ _
  have hnonneg := calculatePlanChangeDetails_nonneg hdays hup
  unfold upgradeQuote
  dsimp only
  rw [if_neg (not_lt.mpr hnonneg)]
  exact hnonneg

/-- The income of a charge goes to the present owner. -/
theorem hostingIncome_process (owner : ℕ) (ids : List ℕ) :
    hostingIncomeOf owner ids (processHostingIncome db e hostId amount i).hostingLogs
      = hostingIncomeOf owner ids db.hostingLogs
        + if resolveHostedIncomeOwner db hostId none false = some owner ∧ i ∈ ids
          then toUnits amount else 0 := by
  unfold processHostingIncome
  split
  · rename_i hnone
    simp [hnone]
  · rename_i hostOwnerId howner
    simp only [recordHostingIncome, Db.createHostingLog, hostingIncomeOf_append, howner]
    congr 1
    by_cases hsame : hostOwnerId = owner <;> by_cases hmem : i ∈ ids <;>
      simp [hostingIncomeOf, incomeOver, hsame, hmem]

theorem content_createBillingRecord (record : BillingRecord) :
    (db.createBillingRecord record).billingRecords.map BillingRecord.content
      = db.billingRecords.map BillingRecord.content ++ [record.content] := by
  simp [Db.createBillingRecord, BillingRecord.content]

/-- A debit leaves records, hosting log, instances and owners alone. -/
theorem debited_keeps (db : Db) (userId : ℕ) (amount : Cents) :
    (db.debited userId amount).billingRecords = db.billingRecords ∧
      (db.debited userId amount).hostingLogs = db.hostingLogs ∧
      (db.debited userId amount).instances = db.instances ∧
      ∀ hostId, resolveHostedIncomeOwner (db.debited userId amount) hostId none false
        = resolveHostedIncomeOwner db hostId none false := by
  unfold Db.debited
  split
  · have hroles := SameHosting.updateUser db userId
      (fun u => { u with balance := u.balance - toUnits amount }) fun _ => rfl
    exact ⟨rfl, rfl, rfl, fun hostId => hroles.resolve hostId none false⟩
  · exact ⟨rfl, rfl, rfl, fun _ => rfl⟩

/-- Income leaves users, records and instances alone. -/
theorem processHostingIncome_keeps (db : Db) (e : Env) (hostId : ℕ) (amount : Cents) (i : ℕ) :
    (processHostingIncome db e hostId amount i).users = db.users ∧
      (processHostingIncome db e hostId amount i).billingRecords = db.billingRecords ∧
      (processHostingIncome db e hostId amount i).instances = db.instances := by
  unfold processHostingIncome
  split <;> exact ⟨rfl, rfl, rfl⟩

/-- The transaction of the administrator's upgrade. -/
theorem adminUpgradeTransaction_posted {userBalance : Units} {expiresAt : Time}
    (hexpires : inst.expiresAt = some expiresAt)
    (h : adminUpgradeTransaction db e i inst newPlan amount userBalance = .ok db') :
    UpgradePosted db db' e i inst newPlan amount := by
  obtain ⟨hrecords, hlogs, hinstances, howner⟩ := debited_keeps db inst.userId amount
  unfold adminUpgradeTransaction at h
  dsimp only at h
  split at h
  · cases h
  cases h
  generalize hdb₁ : db.debited inst.userId amount = db₁ at hrecords hlogs hinstances howner ⊢
  set record : BillingRecord :=
    { id := 0, instanceId := i, userId := inst.userId, type := .upgrade, amount
      periodStart := e.now, periodEnd := inst.expiresAt.getD e.now
      balanceLogId := some (db₁.createBalanceLog _).2, createdAt := e.now }
  set db₂ := (((db₁.createBalanceLog _).1.updateInstance i (·.changedTo newPlan)).createBillingRecord
    record)
  obtain ⟨husers', hrecords', hinstances'⟩ := processHostingIncome_keeps db₂ e inst.hostId amount i
  have hroles : SameHosting db₁ db₂ := .of_eq rfl rfl rfl
  have hresolve := hroles.resolve inst.hostId none false
  refine
    { users := husers'.trans ?_
      billingRecords := ?_
      hostingIncome := fun owner ids => ?_
      instances := hinstances'.trans ?_ }
  · show db₁.users = _
    rw [hdb₁]
  · rw [hrecords', content_createBillingRecord]
    show db₁.billingRecords.map _ ++ _ = _
    rw [hrecords]
    simp only [record, BillingRecord.content, hexpires, Option.getD_some]
  · rw [hostingIncome_process, hresolve, howner]
    show hostingIncomeOf owner ids db₁.hostingLogs + _ = _
    rw [hlogs]
  · show Function.update db₁.instances i ((db₁.instances i).map _) = _
    rw [hinstances]
    rfl

/-- The settlement of an upgrade: the debit and the income, nothing at the price zero. -/
theorem settlePlanChange_debited (hnonneg : 0 ≤ amount)
    (h : settlePlanChange db e userId i hostId amount = .ok db') :
    db'.users = (db.debited userId amount).users ∧ db'.billingRecords = db.billingRecords ∧
      db'.instances = db.instances ∧
      ∀ owner ids, hostingIncomeOf owner ids db'.hostingLogs
        = hostingIncomeOf owner ids db.hostingLogs
          + if resolveHostedIncomeOwner db hostId none false = some owner ∧ i ∈ ids
            then toUnits amount else 0 := by
  obtain ⟨hrecords, hlogs, hinstances, howner⟩ := debited_keeps db userId amount
  unfold settlePlanChange at h
  split at h
  · cases h
  split at h
  · rename_i hpos
    split at h
    · cases h
    rename_i db₁ balanceLogId hcharge
    cases h
    unfold chargeBalance at hcharge
    split at hcharge
    · cases hcharge
    obtain ⟨-, hcharge⟩ := ok_of_guard hcharge
    cases hcharge
    rw [Db.debited, if_pos hpos] at hrecords hlogs hinstances howner ⊢
    set db₁ := db.updateUser userId fun u => { u with balance := u.balance - toUnits amount }
    set db₂ := (db₁.createBalanceLog _).1
    obtain ⟨husers', hrecords', hinstances'⟩ := processHostingIncome_keeps db₂ e hostId amount i
    have hroles : SameHosting db₁ db₂ := .of_eq rfl rfl rfl
    have hresolve := hroles.resolve hostId none false
    refine ⟨husers', hrecords', hinstances', fun owner ids => ?_⟩
    calc hostingIncomeOf owner ids (processHostingIncome db₂ e hostId amount i).hostingLogs
        = hostingIncomeOf owner ids db₂.hostingLogs
          + if resolveHostedIncomeOwner db₂ hostId none false = some owner ∧ i ∈ ids
            then toUnits amount else 0 := hostingIncome_process owner ids
      _ = hostingIncomeOf owner ids db.hostingLogs
          + if resolveHostedIncomeOwner db hostId none false = some owner ∧ i ∈ ids
            then toUnits amount else 0 := by rw [hresolve, howner]; rfl
  · rename_i hzero
    have hamount : amount = 0 := le_antisymm (not_lt.mp hzero) hnonneg
    subst hamount
    dsimp only at h
    rw [if_neg fun hneg => hzero.elim (absurd hneg.1 (lt_irrefl 0))] at h
    cases h
    refine ⟨by rw [Db.debited, if_neg hzero], rfl, rfl, fun owner ids => ?_⟩
    simp [toUnits]

/-- The transaction of the user's change to a dearer plan. -/
theorem performPlanChange_posted (h : performPlanChange db e inst.userId i inst newPlan = .ok db')
    (hup : (upgradeQuote db e.now i inst newPlan).isUpgrade = true) :
    UpgradePosted db db' e i inst newPlan (upgradeQuote db e.now i inst newPlan).priceDiff := by
  have hnonneg := upgradeQuote_nonneg hup
  unfold performPlanChange at h
  obtain ⟨-, h⟩ := ok_of_guard h
  obtain ⟨-, h⟩ := ok_of_guard h
  obtain ⟨-, h⟩ := ok_of_guard h
  obtain ⟨-, h⟩ := ok_of_guard h
  obtain ⟨-, h⟩ := ok_of_guard h
  obtain ⟨-, h⟩ := ok_of_guard h
  split at h
  · cases h
  rename_i changeResult hresult
  obtain rfl := upgradeQuote_eq hresult
  split at h
  · cases h
  rename_i db₁ hsettle
  split at h
  · cases h
  cases h
  obtain ⟨husers, hrecords, hinstances, hincome⟩ := settlePlanChange_debited hnonneg hsettle
  have hamount : (if 0 < (upgradeQuote db e.now i inst newPlan).priceDiff
      then (upgradeQuote db e.now i inst newPlan).priceDiff else 0)
        = (upgradeQuote db e.now i inst newPlan).priceDiff := by
    split
    · rfl
    · rename_i hzero
      exact le_antisymm hnonneg (not_lt.mp hzero)
  refine { users := husers, billingRecords := ?_, hostingIncome := hincome, instances := ?_ }
  · rw [content_createBillingRecord]
    show db₁.billingRecords.map _ ++ _ = _
    rw [hrecords, hamount]
    rfl
  · show Function.update db₁.instances i ((db₁.instances i).map _) = _
    rw [hinstances]
    rfl

end Money

/-! ## Columns and counters -/

/-- The two ways write the same columns. -/
theorem upgradedColumns_eq (w : PlanWorld) {packageId : Option ℕ} (now : Time)
    (currentPlan newPlan : Plan) (monthlyTrafficLimit : ℕ)
    (hpackage : packageId = some newPlan.packageId) :
    w.upgradedColumns now packageId currentPlan newPlan monthlyTrafficLimit
      = w.changedColumns now currentPlan newPlan monthlyTrafficLimit := by
  subst hpackage
  rfl

section Accepted

variable {w w₁ w₂ : PlanWorld} {e : Env} {userId newPlanId : ℕ} {inst inst' : Instance}
  {oldPlan oldPlan' newPlan newPlan' : Plan}

theorem changeParties_spec (hinst : w.db.instances w.inst.id = some inst)
    (hold : inst.packagePlanId.bind w.plans = some oldPlan) (hnew : w.plans newPlanId = some newPlan)
    (h : w.changeParties userId newPlanId = .ok (inst', oldPlan', newPlan')) :
    inst' = inst ∧ oldPlan' = oldPlan ∧ newPlan' = newPlan ∧ inst.userId = userId ∧
      inst.packageId = some newPlan.packageId := by
  simp only [PlanWorld.changeParties, hinst, hold, hnew] at h
  obtain ⟨huser, h⟩ := ok_of_guard h
  obtain ⟨-, h⟩ := ok_of_guard h
  obtain ⟨-, h⟩ := ok_of_guard h
  obtain ⟨hpackage, h⟩ := ok_of_guard h
  obtain ⟨-, h⟩ := ok_of_guard h
  obtain ⟨-, h⟩ := ok_of_guard h
  obtain ⟨-, h⟩ := ok_of_guard h
  obtain ⟨-, h⟩ := ok_of_guard h
  obtain ⟨-, h⟩ := ok_of_guard h
  cases h
  exact ⟨rfl, rfl, rfl, not_not.mp huser, not_not.mp hpackage⟩

theorem upgradeParties_spec (hinst : w.db.instances w.inst.id = some inst)
    (hold : inst.packagePlanId.bind w.plans = some oldPlan) (hnew : w.plans newPlanId = some newPlan)
    (h : w.upgradeParties newPlanId = .ok (inst', oldPlan', newPlan')) :
    inst' = inst ∧ oldPlan' = oldPlan ∧ newPlan' = newPlan := by
  simp only [PlanWorld.upgradeParties, hinst, hold, hnew] at h
  obtain ⟨-, h⟩ := ok_of_guard h
  obtain ⟨-, h⟩ := ok_of_guard h
  obtain ⟨-, h⟩ := ok_of_guard h
  obtain ⟨-, h⟩ := ok_of_guard h
  obtain ⟨-, h⟩ := ok_of_guard h
  obtain ⟨-, h⟩ := ok_of_guard h
  cases h
  exact ⟨rfl, rfl, rfl⟩

/-- A change that is accepted: its transaction has run, and the counters have
moved by the difference to what the instance has. -/
theorem changePlan_effect (hinst : w.db.instances w.inst.id = some inst)
    (hold : inst.packagePlanId.bind w.plans = some oldPlan) (hnew : w.plans newPlanId = some newPlan)
    (h : w.changePlan e userId newPlanId true = .ok w₁) :
    inst.userId = userId ∧ inst.packageId = some newPlan.packageId ∧ inst.expiresAt ≠ none ∧
      ∃ monthlyTrafficLimit db,
        w.resolveInstanceTrafficLimitForHost inst.packageId inst.hostId newPlan.trafficLimit
          = .ok monthlyTrafficLimit ∧
        performPlanChange w.db e userId w.inst.id inst newPlan.toPackagePlan = .ok db ∧
        let columns := w.changedColumns e.now oldPlan newPlan monthlyTrafficLimit
        w₁ = { w with
          db
          inst := columns.inst
          limits := columns.limits
          traffic := columns.traffic
          host := w.host.withUsed (w.host.used + w.inst.planDelta newPlan.resources) } := by
  unfold PlanWorld.changePlan at h
  split at h
  · cases h
  rename_i inst' oldPlan' newPlan' hparties
  obtain ⟨rfl, rfl, rfl, huser, hpackage⟩ := changeParties_spec hinst hold hnew hparties
  dsimp only at h
  obtain ⟨-, h⟩ := ok_of_guard h
  split at h
  · cases h
  obtain ⟨-, h⟩ := ok_of_guard h
  obtain ⟨-, h⟩ := ok_of_guard h
  obtain ⟨hexpires, h⟩ := ok_of_guard h
  split at h
  · cases h
  rename_i monthlyTrafficLimit hlimit
  split at h
  · cases h
  rename_i db hchange
  exact ⟨huser, hpackage, hexpires, monthlyTrafficLimit, db, hlimit, hchange,
    (Except.ok.inj h).symm⟩

/-- An upgrade that is accepted: its transaction has run, and the counters have
moved by the difference of the plans. -/
theorem adminUpgradePlan_effect (hinst : w.db.instances w.inst.id = some inst)
    (hold : inst.packagePlanId.bind w.plans = some oldPlan) (hnew : w.plans newPlanId = some newPlan)
    (h : w.adminUpgradePlan e newPlanId = .ok w₂) :
    (upgradeQuote w.db e.now w.inst.id inst newPlan.toPackagePlan).isUpgrade = true ∧
      ∃ monthlyTrafficLimit db balance,
        w.resolveInstanceTrafficLimitForHost inst.packageId inst.hostId newPlan.trafficLimit
          = .ok monthlyTrafficLimit ∧
        adminUpgradeTransaction w.db e w.inst.id inst newPlan.toPackagePlan
          (upgradeQuote w.db e.now w.inst.id inst newPlan.toPackagePlan).priceDiff balance
          = .ok db ∧
        let columns :=
          w.upgradedColumns e.now inst.packageId oldPlan newPlan monthlyTrafficLimit
        w₂ = { w with
          db
          inst := columns.inst
          limits := columns.limits
          traffic := columns.traffic
          host := w.host.withUsed (w.host.used + oldPlan.deltaTo newPlan) } := by
  unfold PlanWorld.adminUpgradePlan at h
  split at h
  · cases h
  rename_i inst' oldPlan' newPlan' hparties
  obtain ⟨rfl, rfl, rfl⟩ := upgradeParties_spec hinst hold hnew hparties
  dsimp only at h
  obtain ⟨-, h⟩ := ok_of_guard h
  obtain ⟨hupgrade, h⟩ := ok_of_guard h
  split at h
  · cases h
  rename_i user huser
  obtain ⟨-, h⟩ := ok_of_guard h
  obtain ⟨-, h⟩ := ok_of_guard h
  split at h
  · cases h
  rename_i monthlyTrafficLimit hlimit
  split at h
  · cases h
  rename_i db hupgraded
  exact ⟨by simpa using hupgrade, monthlyTrafficLimit, db, user.balance, hlimit, hupgraded,
    (Except.ok.inj h).symm⟩

end Accepted

/-! ## Agreement -/

/-- What a change of plan does to balances, ledgers, row and counters is the same.
The observation leaves out texts, the link of a bill to the balance log and the
row that the log gets for a price of zero. -/
structure SameEffect (w₁ w₂ : PlanWorld) : Prop where
  users : w₁.db.users = w₂.db.users
  billingRecords :
    w₁.db.billingRecords.map BillingRecord.content = w₂.db.billingRecords.map BillingRecord.content
  hostingIncome : ∀ owner ids,
    hostingIncomeOf owner ids w₁.db.hostingLogs = hostingIncomeOf owner ids w₂.db.hostingLogs
  instances : w₁.db.instances = w₂.db.instances
  inst : w₁.inst = w₂.inst
  limits : w₁.limits = w₂.limits
  traffic : w₁.traffic = w₂.traffic
  host : w₁.host = w₂.host

/-- The counters have moved by the change of what the instance has. -/
def FollowsRow (w w' : PlanWorld) : Prop :=
  w'.host.used - w.host.used = w'.inst.resources - w.inst.resources

/-- The instance has the CPU, memory and disk of the plan. -/
def HostedInstance.HasResourcesOf (inst : HostedInstance) (plan : PlanResources) : Prop :=
  inst.cpu = plan.cpu ∧ inst.memory = plan.memory ∧ inst.disk = plan.disk

section Agreement

variable {w w₁ w₂ : PlanWorld} {e : Env} {userId newPlanId : ℕ} {inst : Instance}
  {oldPlan newPlan : Plan}

/-- The two deltas: equal for an instance as its plan says, when no port is added. -/
theorem deltaTo_eq_planDelta_iff (inst : HostedInstance) (oldPlan newPlan : Plan) :
    oldPlan.deltaTo newPlan = inst.planDelta newPlan.resources ↔
      inst.HasResourcesOf oldPlan.resources ∧ (inst.planDelta newPlan.resources).portCount = 0 := by
  constructor
  · intro h
    have hcpu := congrArg Resources.cpu h
    have hmemory := congrArg Resources.memory h
    have hdisk := congrArg Resources.disk h
    have hports := congrArg Resources.portCount h
    simp only [Plan.deltaTo, HostedInstance.planDelta, sub_right_inj, Nat.cast_inj]
      at hcpu hmemory hdisk
    exact ⟨⟨hcpu.symm, hmemory.symm, hdisk.symm⟩, hports.symm⟩
  · rintro ⟨⟨hcpu, hmemory, hdisk⟩, hports⟩
    ext
    · simp [Plan.deltaTo, HostedInstance.planDelta, hcpu]
    · simp [Plan.deltaTo, HostedInstance.planDelta, hmemory]
    · simp [Plan.deltaTo, HostedInstance.planDelta, hdisk]
    · exact hports.symm

/-- Both accept the same plan: they agree, and the counters follow the row,
exactly for an instance that has what its plan says and gets no other port limit. -/
theorem plan_change_agrees_iff (hinst : w.db.instances w.inst.id = some inst)
    (hold : inst.packagePlanId.bind w.plans = some oldPlan) (hnew : w.plans newPlanId = some newPlan)
    (h₁ : w.changePlan e userId newPlanId true = .ok w₁)
    (h₂ : w.adminUpgradePlan e newPlanId = .ok w₂) :
    SameEffect w₁ w₂ ∧ FollowsRow w w₁ ∧ FollowsRow w w₂ ↔
      w.inst.HasResourcesOf oldPlan.resources ∧
        (w.inst.planDelta newPlan.resources).portCount = 0 := by
  obtain ⟨rfl, hpackage, hexpires, monthlyTrafficLimit, db₁, hlimit, hchange, rfl⟩ :=
    changePlan_effect hinst hold hnew h₁
  obtain ⟨hup, monthlyTrafficLimit', db₂, balance, hlimit', hupgrade, rfl⟩ :=
    adminUpgradePlan_effect hinst hold hnew h₂
  obtain rfl : monthlyTrafficLimit = monthlyTrafficLimit' :=
    Except.ok.inj (hlimit.symm.trans hlimit')
  obtain ⟨expiresAt, hexpires⟩ := Option.ne_none_iff_exists'.mp hexpires
  have hposted₁ := performPlanChange_posted hchange hup
  have hposted₂ := adminUpgradeTransaction_posted hexpires hupgrade
  have hcolumns := upgradedColumns_eq w e.now oldPlan newPlan monthlyTrafficLimit hpackage
  -- the user's change follows the row always, the upgrade only with the same delta
  have hrow := w.inst.resources_changedPlan newPlan.resources
  rw [← deltaTo_eq_planDelta_iff]
  constructor
  · rintro ⟨-, -, hfollows⟩
    have hmoved : w.host.used + oldPlan.deltaTo newPlan - w.host.used
        = (w.inst.changedPlan newPlan.resources).resources - w.inst.resources := hfollows
    rw [add_sub_cancel_left] at hmoved
    exact hmoved.trans hrow
  · intro hdelta
    rw [hdelta, hcolumns]
    have hfollows : w.host.used + w.inst.planDelta newPlan.resources - w.host.used
        = (w.inst.changedPlan newPlan.resources).resources - w.inst.resources := by
      rw [add_sub_cancel_left, hrow]
    refine ⟨?_, hfollows, hfollows⟩
    exact
      { users := hposted₁.users.trans hposted₂.users.symm
        billingRecords := hposted₁.billingRecords.trans hposted₂.billingRecords.symm
        hostingIncome := fun owner ids =>
          (hposted₁.hostingIncome owner ids).trans (hposted₂.hostingIncome owner ids).symm
        instances := hposted₁.instances.trans hposted₂.instances.symm
        inst := rfl
        limits := rfl
        traffic := rfl
        host := rfl }

end Agreement

/-! ## An instance as its plan says, and one with more CPU -/

/-- The instance 5 of the user 1 on the host 1, twenty days before it expires. -/
def upgradeWorld (cpu : ℕ) : PlanWorld where
  db :=
    { users := fun id => if id ∈ [1, 2] then some { balance := 1000000000 } else none
      hosts := fun id => if id = 1 then some { userId := 2 } else none
      instances := fun id =>
        if id = 5 then
          some { userId := 1, hostId := 1, status := .running, packageId := some 1
                 packagePlanId := some 1, billingPrice := some 1000, billingCycle := some 1
                 expiresAt := some (20 * msPerDay) }
        else none }
  plans := fun id =>
    if id ∈ [1, 2] then
      some
        { id, packageId := 1, price := 100000 * id, billingCycle := 1
          resources := { cpu := 100 * id, memory := 1024 * id, disk := 10240 * id, portLimit := 5 }
          snapshotLimit := id, backupLimit := id, siteLimit := id, trafficLimit := 1000 * id }
    else none
  inst := { id := 5, userId := 1, status := .running, cpu, memory := 1024, disk := 10240
            portLimit := some 5 }
  limits := { snapshotLimit := some 1, backupLimit := some 1, siteLimit := some 1 }
  traffic := { id := 5, hostId := 1, userId := 1, status := .running
               monthlyTrafficLimit := some 1000 }
  host := { cpuAllowanceMax := some 1000, memoryMax := some 100000, storageSize := some 1000
            used := ⟨cpu, 1024, 10240, 5⟩ }

/-- Where the condition holds: 6.45 for twenty days of a plan twice as dear. -/
theorem plan_change_agrees_as_planned :
    ∃ w₁ w₂, (upgradeWorld 100).changePlan { now := 0 } 1 2 true = .ok w₁ ∧
      (upgradeWorld 100).adminUpgradePlan { now := 0 } 2 = .ok w₂ ∧
      SameEffect w₁ w₂ ∧ FollowsRow (upgradeWorld 100) w₁ ∧ FollowsRow (upgradeWorld 100) w₂ := by
  obtain ⟨w₁, h₁⟩ := Option.isSome_iff_exists.mp
    (show ((upgradeWorld 100).changePlan { now := 0 } 1 2 true).toOption.isSome = true by
      decide +kernel)
  obtain ⟨w₂, h₂⟩ := Option.isSome_iff_exists.mp
    (show ((upgradeWorld 100).adminUpgradePlan { now := 0 } 2).toOption.isSome = true by
      decide +kernel)
  have h₁ := toOption_eq_some h₁
  have h₂ := toOption_eq_some h₂
  exact ⟨w₁, w₂, h₁, h₂, (plan_change_agrees_iff rfl rfl rfl h₁ h₂).mpr ⟨⟨rfl, rfl, rfl⟩, rfl⟩⟩

/-- A redeem code has raised the CPU from 100 to 150.  The user's change sets the
counter from 150 to 200, the administrator's upgrade to 250. -/
theorem upgrade_counts_redeemed_cpu_again :
    ∃ w₁ w₂, (upgradeWorld 150).changePlan { now := 0 } 1 2 true = .ok w₁ ∧
      (upgradeWorld 150).adminUpgradePlan { now := 0 } 2 = .ok w₂ ∧
      ¬SameEffect w₁ w₂ ∧ ¬FollowsRow (upgradeWorld 150) w₂ := by
  obtain ⟨w₁, h₁, hused₁⟩ := Option.map_eq_some_iff.mp
    (show ((upgradeWorld 150).changePlan { now := 0 } 1 2 true).toOption.map
      (fun w => w.host.used.cpu) = some 200 by decide +kernel)
  obtain ⟨w₂, h₂, hused₂⟩ := Option.map_eq_some_iff.mp
    (show ((upgradeWorld 150).adminUpgradePlan { now := 0 } 2).toOption.map
      (fun w => (w.host.used.cpu, w.inst.cpu)) = some (250, 200) by decide +kernel)
  have hcounter : w₂.host.used.cpu = 250 := congrArg Prod.fst hused₂
  have hrow : w₂.inst.cpu = 200 := congrArg Prod.snd hused₂
  refine ⟨w₁, w₂, toOption_eq_some h₁, toOption_eq_some h₂, fun hsame => ?_, fun hfollows => ?_⟩
  · rw [hsame.host, hcounter] at hused₁
    exact absurd hused₁ (by decide)
  · have hmoved : w₂.host.used.cpu - 150 = (w₂.inst.cpu : ℤ) - 150 :=
      congrArg Resources.cpu hfollows
    rw [hcounter, hrow] at hmoved
    exact absurd hmoved (by decide)

end Incudal
