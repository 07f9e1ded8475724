/-
# `PlanChangeRollback` — a change of plan step by step, and its preview

The route of a change reserves on the host, patches Incus, and then writes money,
row and bill in one transaction; what it has done outside of the transaction it
takes back when a later step fails.  Every step can fail here (`ChangeStep`), on
its own or by a check of the code.

The preview compares the prices a day after the discount, each rounded to cents;
the execution compares them before it.  Two rounded prices can be in the other
order, and then the preview allows what the execution rejects
(`preview_allows_rejected_change`).  All else holds, so the change is sound just
where the roundings keep the order, and where Incus has the limits of the row that
a failure puts back (`plan_change_sound_iff`).
-/
import Incudal.PlanChange
import Incudal.PlanPrices

namespace Incudal

/-! ## The system and its steps -/

/-- What `patchInstanceResources` sets. -/
structure IncusLimits where
  cpu : ℕ
  memory : ℕ
  disk : ℕ
deriving DecidableEq, Repr

/-- The tables and the limits of the instance on Incus. -/
structure PlanSystem extends PlanWorld where
  incus : IncusLimits

/-- The steps that can fail besides the checks of the code; from `findPendingBill` on they are
statements of the transaction. -/
inductive ChangeStep
  | getHostById | getIncusClient | reserveHost | patchInstanceResources
  | findPackage | calculatePlanChange
  | findPendingBill | settle | resolveTrafficLimit | updateInstance | createBillingRecord | commit
deriving DecidableEq, Repr

/-- The error of each step that fails. -/
abbrev ChangeFaults := ChangeStep → Option String

/-- Goes on when a step does not fail. -/
def attempt {α : Type} (fault : Option String) (x : Except String α) : Except String α :=
  match fault with
  | some message => .error message
  | none => x

def DOWNGRADE_NOT_ALLOWED : String := "不支持降级，只能升级到更高配置的方案"

/-- `instance.billingCycle || 1` -/
def Instance.billedCycle (inst : Instance) : ℕ :=
  match inst.billingCycle with | some 0 => 1 | some cycle => cycle | none => 1

def Instance.dailyPrice (inst : Instance) : ℚ :=
  calculateDailyPrice (inst.billingPrice.getD 0) inst.billedCycle

def PackagePlan.dailyPrice (plan : PackagePlan) : ℚ :=
  calculateDailyPrice ((plan.price : ℚ) / 100) plan.billingCycle

namespace PlanWorld

variable (w : PlanWorld) (e : Env)

/-- The checks that preview and execution begin with. -/
def changeGates (userId newPlanId : ℕ) : Except String (Instance × Plan) :=
  match w.db.instances w.inst.id with
  | none => .error "INSTANCE_NOT_FOUND"
  | some inst =>
      if inst.userId ≠ userId then .error "FORBIDDEN"
      else if !inst.isPackageInstance then .error "免费实例不支持升降级"
      else
        match w.plans newPlanId with
        | none => .error "方案不存在"
        | some newPlan =>
            if newPlan.billingMode ≠ .package then
              .error "按小时计费方案不能通过固定周期升降级入口切换"
            else if inst.packageId ≠ some newPlan.packageId then .error "新方案必须属于同一套餐"
            else if inst.packagePlanId = some newPlanId then .error "不能切换到相同方案"
            else if !newPlan.isActive then .error "该方案已下架"
            else if newPlan.isSoldOut then .error "该方案已售罄"
            else .ok (inst, newPlan)

/-- What the preview shows, as far as the change is about it. -/
structure ChangePreview where
  calcResult : PlanChangeCalcResult
  canChange : Bool
deriving DecidableEq, Repr

/-- `GET /instances/:id/change-plan/preview`. -/
def previewChangePlan (userId newPlanId : ℕ) : Except String ChangePreview :=
  match w.changeGates userId newPlanId with
  | .error message => .error message
  | .ok (inst, newPlan) =>
      let statusCanChange := inst.status = .running ∨ inst.status = .stopped
      match inst.packagePlanId.bind w.plans with
      | none => .error "原方案不存在"
      | some _ =>
          let preview := upgradeQuote w.db e.now w.inst.id inst newPlan.toPackagePlan
          let remainingDays := calculateRemainingDaysPrecise (inst.expiresAt.getD 0) e.now
          if !preview.isUpgrade then .error DOWNGRADE_NOT_ALLOWED
          else .ok ⟨preview, decide (statusCanChange ∧ ¬remainingDays < 15)⟩

/-- The checks of the execution: those, the state, and the upgrade where the old plan is found. -/
def changeChecks (userId newPlanId : ℕ) : Except String (Instance × Plan) :=
  match w.changeGates userId newPlanId with
  | .error message => .error message
  | .ok (inst, newPlan) =>
      if ¬(inst.status = .running ∨ inst.status = .stopped) then
        .error "当前实例状态不允许升级，仅运行中或已停止的实例可以操作"
      else if (inst.packagePlanId.bind w.plans).isSome ∧ newPlan.dailyPrice ≤ inst.dailyPrice then
        .error DOWNGRADE_NOT_ALLOWED
      else .ok (inst, newPlan)

/-- The disk, the host and its four checks. -/
def hostChecks (faults : ChangeFaults) (newPlan : Plan) : Except String Unit :=
  if newPlan.resources.disk < w.inst.disk then .error "不支持缩小实例磁盘，请选择磁盘不小于当前配置的方案"
  else
    attempt (faults .getHostById) <|
      match w.host.planRefusal (w.inst.planDelta newPlan.resources) with
      | some message => .error message
      | none => attempt (faults .getIncusClient) (.ok ())

/-- The transaction of `performPlanChange`. -/
def planTransaction (faults : ChangeFaults) (userId : ℕ) (inst : Instance) (oldPlan newPlan : Plan)
    (changeResult : PlanChangeCalcResult) : Except String PlanWorld :=
  attempt (faults .findPendingBill) <|
    if w.leavesUnpaidTraffic newPlan then .error "存在未支付流量账单，结清后才能切换到套餐流量计费"
    else attempt (faults .settle) <|
      match settlePlanChange w.db e userId w.inst.id inst.hostId changeResult.priceDiff with
      | .error message => .error message
      | .ok db => attempt (faults .resolveTrafficLimit) <|
          match w.resolveInstanceTrafficLimitForHost inst.packageId inst.hostId
              newPlan.trafficLimit with
          | .error message => .error message
          | .ok monthlyTrafficLimit => attempt (faults .updateInstance) <|
              if (db.instances w.inst.id).map (·.version) ≠ some inst.version then
                .error "实例状态已变更，请重试"
              else attempt (faults .createBillingRecord) <|
                match inst.expiresAt with
                | none => .error "periodEnd must not be null"
                | some periodEnd => attempt (faults .commit) <|
                    let columns := w.changedColumns e.now oldPlan newPlan monthlyTrafficLimit
                    let db := db.updateInstance w.inst.id (·.changedTo newPlan.toPackagePlan)
                    .ok { w with
                      db := db.createBillingRecord
                        { id := 0, instanceId := w.inst.id, userId
                          type := if changeResult.isUpgrade then .upgrade else .downgrade
                          amount := if 0 < changeResult.priceDiff then changeResult.priceDiff else 0
                          periodStart := e.now, periodEnd, createdAt := e.now }
                      inst := columns.inst
                      limits := columns.limits
                      traffic := columns.traffic }

/-- `performPlanChange`, with what the response shows as the difference. -/
def performPlanChange (faults : ChangeFaults) (userId : ℕ) (inst : Instance) (newPlan : Plan) :
    Except String (PlanWorld × Cents) :=
  attempt (faults .findPackage) <|
    if !inst.isPackageInstance then .error "免费实例不支持升降级"
    else if ¬(inst.status = .running ∨ inst.status = .stopped) then
      .error "当前实例状态不允许升降级，仅运行中或已停止的实例可以升降级"
    else if inst.packageId ≠ some newPlan.packageId then .error "新方案必须属于同一套餐"
    else if !newPlan.isActive then .error "新方案已下架"
    else if newPlan.isSoldOut then .error "新方案已售罄"
    else if inst.packagePlanId = some newPlan.id then .error "不能切换到相同方案"
    else attempt (faults .calculatePlanChange) <|
      match inst.packagePlanId.bind w.plans with
      | none => .error "原方案不存在"
      | some oldPlan =>
          match calculatePlanChange w.db e.now w.inst.id inst newPlan.toPackagePlan with
          | none => .error "剩余时间不足 15 天，无法变更方案"
          | some changeResult =>
              match w.planTransaction e faults userId inst oldPlan newPlan changeResult with
              | .error message => .error message
              | .ok w' =>
                  let refundAmount :=
                    min |changeResult.priceDiff| (getMaxRefundable w.db w.inst.id)
                  .ok (w', if changeResult.priceDiff < 0 then -refundAmount
                    else changeResult.priceDiff)

end PlanWorld

/-! ## The route -/

/-- How far a change has come. -/
structure ChangeProgress where
  system : PlanSystem
  hostReserved : Bool := false
  incusApplied : Bool := false

namespace PlanSystem

variable (s : PlanSystem) (e : Env)

def increment (delta : Resources) : PlanSystem :=
  { s with host := s.host.withUsed (s.host.used + delta) }

def patch (cpu memory disk : ℕ) : PlanSystem := { s with incus := ⟨cpu, memory, disk⟩ }

/-- The inner `try`, up to where it fails. -/
def tryChange (faults : ChangeFaults) (userId : ℕ) (inst : Instance) (newPlan : Plan) :
    ChangeProgress × Except String Cents :=
  let delta := s.inst.planDelta newPlan.resources
  match if delta ≠ 0 then faults .reserveHost else none with
  | some message => ({ system := s }, .error message)
  | none =>
      let progress : ChangeProgress :=
        if delta ≠ 0 then { system := s.increment delta, hostReserved := true } else { system := s }
      match faults .patchInstanceResources with
      | some message => (progress, .error message)
      | none =>
          let progress := { progress with
            system := progress.system.patch newPlan.resources.cpu newPlan.resources.memory
              newPlan.resources.disk
            incusApplied := true }
          match progress.system.performPlanChange e faults userId inst newPlan with
          | .error message => (progress, .error message)
          | .ok (w, priceDiff) =>
              ({ progress with system := { w with incus := progress.system.incus } }, .ok priceDiff)

/-- The `catch`: Incus first, then the host. -/
def rollBack (progress : ChangeProgress) (delta : Resources) : PlanSystem :=
  let system :=
    if progress.incusApplied then progress.system.patch s.inst.cpu s.inst.memory s.inst.disk
    else progress.system
  if progress.hostReserved then system.increment (-delta) else system

/-- `POST /instances/:id/change-plan`: the system after it, and the answer. -/
def changePlanRoute (faults : ChangeFaults) (userId newPlanId : ℕ) :
    PlanSystem × Except String Cents :=
  match s.changeChecks userId newPlanId with
  | .error message => (s, .error message)
  | .ok (inst, newPlan) =>
      match s.hostChecks faults newPlan with
      | .error message => (s, .error message)
      | .ok () =>
          match s.tryChange e faults userId inst newPlan with
          | (progress, .error message) =>
              (s.rollBack progress (s.inst.planDelta newPlan.resources), .error message)
          | (progress, .ok priceDiff) => (progress.system, .ok priceDiff)

end PlanSystem

/-! ## What is promised, and when it is kept -/

/-- The limits of the row on Incus. -/
def HostedInstance.incusLimits (inst : HostedInstance) : IncusLimits :=
  ⟨inst.cpu, inst.memory, inst.disk⟩

/-- Charge, row, Incus and counters are those of the new plan. -/
structure PlanInForce (s s' : PlanSystem) (e : Env) (userId : ℕ) (inst : Instance)
    (oldPlan newPlan : Plan) (priceDiff : Cents) : Prop where
  quoted : ∃ isUpgrade, calculatePlanChange s.db e.now s.inst.id inst newPlan.toPackagePlan =
    some { priceDiff, isUpgrade }
  paid : 0 ≤ priceDiff → s'.db.users = (s.db.debited userId priceDiff).users
  refunded : priceDiff < 0 → ∃ log record logs records,
    RefundPosted s.db s'.db userId s.inst.id (-priceDiff) log record logs records
  recorded : ∃ record, record.instanceId = s.inst.id ∧ record.userId = userId ∧
    (record.type = .upgrade ∨ record.type = .downgrade) ∧ record.amount = max 0 priceDiff ∧
    ∃ refunds, s'.db.billingRecords = s.db.billingRecords ++ refunds ++ [record] ∧
      (0 ≤ priceDiff → refunds = [])
  billing : s'.db.instances
    = (s.db.updateInstance s.inst.id (·.changedTo newPlan.toPackagePlan)).instances
  columns : ∃ monthlyTrafficLimit,
    (⟨s'.inst, s'.limits, s'.traffic⟩ : PlanColumns) =
      s.changedColumns e.now oldPlan newPlan monthlyTrafficLimit
  incus : s'.incus = s'.inst.incusLimits
  host : s'.host = s.host.withUsed (s.host.used + (s'.inst.resources - s.inst.resources))

/-- The request is all or nothing, whatever fails, and the execution's check of the upgrade does
not reject what the preview allows. -/
structure PlanChangeSound (s : PlanSystem) (e : Env) (userId newPlanId : ℕ) : Prop where
  failed : ∀ faults s' message,
    s.changePlanRoute e faults userId newPlanId = (s', .error message) → s' = s
  changed : ∀ faults s' priceDiff,
    s.changePlanRoute e faults userId newPlanId = (s', .ok priceDiff) →
      ∃ inst oldPlan newPlan, s.db.instances s.inst.id = some inst ∧
        inst.packagePlanId.bind s.plans = some oldPlan ∧ s.plans newPlanId = some newPlan ∧
        PlanInForce s s' e userId inst oldPlan newPlan priceDiff
  previewed : ∀ preview, s.previewChangePlan e userId newPlanId = .ok preview →
    preview.canChange = true → s.changeChecks userId newPlanId ≠ .error DOWNGRADE_NOT_ALLOWED

/-- What the rounding of a discounted price to cents adds to it by the day. -/
def dailyRounding (price : ℚ) (billingCycle : ℕ) (discountRate : ℚ) : ℚ :=
  (calculateDiscountedPrice price discountRate - price * (1 - discountRate)) /
    getCycleDays billingCycle

/-- The new plan is the dearer one by the day, or there is no discount, or the two roundings do
not make up for the discounted difference. -/
def RoundingKeepsOrder (oldPrice : ℚ) (oldCycle : ℕ) (newPrice : ℚ) (newCycle : ℕ)
    (discountRate : ℚ) : Prop :=
  calculateDailyPrice oldPrice oldCycle < calculateDailyPrice newPrice newCycle ∨
    discountRate ≤ 0 ∨
    dailyRounding newPrice newCycle discountRate - dailyRounding oldPrice oldCycle discountRate ≤
      (1 - discountRate) *
        (calculateDailyPrice oldPrice oldCycle - calculateDailyPrice newPrice newCycle)

/-- The request gets to the host. -/
def PlanSystem.ReachesHost (s : PlanSystem) (userId newPlanId : ℕ) : Prop :=
  ∃ inst newPlan, s.changeChecks userId newPlanId = .ok (inst, newPlan) ∧
    s.hostChecks (fun _ => none) newPlan = .ok ()

/-- All of the preview but the prices allows the change. -/
structure PlanSystem.Previewable (s : PlanSystem) (e : Env) (userId newPlanId : ℕ)
    (inst : Instance) (newPlan : Plan) : Prop where
  gates : s.changeGates userId newPlanId = .ok (inst, newPlan)
  status : inst.status = .running ∨ inst.status = .stopped
  oldPlan : (inst.packagePlanId.bind s.plans).isSome
  days : ¬calculateRemainingDaysPrecise (inst.expiresAt.getD 0) e.now < 15

structure PlanChangeSafe (s : PlanSystem) (e : Env) (userId newPlanId : ℕ) : Prop where
  inSync : s.ReachesHost userId newPlanId → s.incus = s.inst.incusLimits
  rounding : ∀ inst newPlan, s.Previewable e userId newPlanId inst newPlan →
    RoundingKeepsOrder (inst.billingPrice.getD 0) inst.billedCycle ((newPlan.price : ℚ) / 100)
      newPlan.billingCycle (boundAffDiscountRate s.db s.inst.id)

/-! ## The preview -/

theorem calculateDailyPrice_discounted (price discountRate : ℚ) (billingCycle : ℕ) :
    calculateDailyPrice (calculateDiscountedPrice price discountRate) billingCycle =
      (1 - discountRate) * calculateDailyPrice price billingCycle +
        dailyRounding price billingCycle discountRate := by
  unfold calculateDailyPrice dailyRounding
  ring

/-- An upgrade after the discount is one before it, exactly where the roundings keep the order. -/
theorem upgrade_kept_iff (remainingDays : ℚ) {oldPrice newPrice discountRate : ℚ}
    {oldCycle newCycle : ℕ} :
    ((calculatePlanChangeDetails oldPrice oldCycle newPrice newCycle remainingDays
        discountRate).isUpgrade = true →
      calculateDailyPrice oldPrice oldCycle < calculateDailyPrice newPrice newCycle) ↔
      RoundingKeepsOrder oldPrice oldCycle newPrice newCycle discountRate := by
  simp only [calculatePlanChangeDetails, decide_eq_true_eq, gt_iff_lt, RoundingKeepsOrder]
  by_cases hrate : 0 < discountRate
  · simp only [effectivePrice, if_pos hrate, calculateDailyPrice_discounted]
    generalize calculateDailyPrice oldPrice oldCycle = oldDaily
    generalize calculateDailyPrice newPrice newCycle = newDaily
    generalize dailyRounding oldPrice oldCycle discountRate = oldRounding
    generalize dailyRounding newPrice newCycle discountRate = newRounding
    have hle : ¬discountRate ≤ 0 := not_le.mpr hrate
    have hkept : newRounding - oldRounding ≤ (1 - discountRate) * (oldDaily - newDaily) ↔
        ¬(1 - discountRate) * oldDaily + oldRounding <
          (1 - discountRate) * newDaily + newRounding := by
      rw [not_lt, mul_sub]
      constructor <;> intro h <;> linarith
    rw [hkept]
    tauto
  · simp [effectivePrice, if_neg hrate, not_lt.mp hrate]

section Preview

variable {s : PlanSystem} {e : Env} {userId newPlanId : ℕ} {inst : Instance} {newPlan : Plan}
  {preview : PlanWorld.ChangePreview}

/-- What a preview that allows the change has found. -/
theorem previewChangePlan_ok (h : s.previewChangePlan e userId newPlanId = .ok preview)
    (hcan : preview.canChange = true) :
    ∃ inst newPlan, s.Previewable e userId newPlanId inst newPlan ∧
      (upgradeQuote s.db e.now s.inst.id inst newPlan.toPackagePlan).isUpgrade = true := by
  unfold PlanWorld.previewChangePlan at h
  split at h
  · cases h
  rename_i inst newPlan hgates
  dsimp only at h
  split at h
  · cases h
  rename_i oldPlan hold
  obtain ⟨hup, h⟩ := ok_of_guard h
  cases h
  have hcan' := of_decide_eq_true hcan
  exact ⟨inst, newPlan, ⟨hgates, hcan'.1, by simp [hold], hcan'.2⟩, by simpa using hup⟩

theorem previewChangePlan_eq (h : s.Previewable e userId newPlanId inst newPlan)
    (hup : (upgradeQuote s.db e.now s.inst.id inst newPlan.toPackagePlan).isUpgrade = true) :
    ∃ preview, s.previewChangePlan e userId newPlanId = .ok preview ∧
      preview.canChange = true := by
  obtain ⟨oldPlan, hold⟩ := Option.isSome_iff_exists.mp h.oldPlan
  let preview : PlanWorld.ChangePreview :=
    ⟨upgradeQuote s.db e.now s.inst.id inst newPlan.toPackagePlan,
      decide ((inst.status = .running ∨ inst.status = .stopped) ∧
        ¬calculateRemainingDaysPrecise (inst.expiresAt.getD 0) e.now < 15)⟩
  refine ⟨preview, ?_, decide_eq_true ⟨h.status, h.days⟩⟩
  simp only [PlanWorld.previewChangePlan, h.gates, hold, hup, Bool.not_true, Bool.false_eq_true,
    if_false, preview]

/-- The check of the execution on a request that the preview gets to price. -/
theorem changeChecks_eq (h : s.Previewable e userId newPlanId inst newPlan) :
    s.changeChecks userId newPlanId =
      if newPlan.dailyPrice ≤ inst.dailyPrice then .error DOWNGRADE_NOT_ALLOWED
      else .ok (inst, newPlan) := by
  simp only [PlanWorld.changeChecks, h.gates, h.status, not_true, if_false, h.oldPlan, true_and]

/-- The preview and the execution agree exactly where the roundings keep the order. -/
theorem previewed_iff :
    (∀ preview, s.previewChangePlan e userId newPlanId = .ok preview → preview.canChange = true →
      s.changeChecks userId newPlanId ≠ .error DOWNGRADE_NOT_ALLOWED) ↔
    ∀ inst newPlan, s.Previewable e userId newPlanId inst newPlan →
      RoundingKeepsOrder (inst.billingPrice.getD 0) inst.billedCycle ((newPlan.price : ℚ) / 100)
        newPlan.billingCycle (boundAffDiscountRate s.db s.inst.id) := by
  constructor
  · intro h inst newPlan hprev
    let remainingDays := calculateRemainingDaysPrecise (inst.expiresAt.getD 0) e.now
    refine (upgrade_kept_iff remainingDays).mp fun hup => not_le.mp fun hle => ?_
    obtain ⟨preview, hpreview, hcan⟩ := previewChangePlan_eq hprev hup
    refine h preview hpreview hcan ?_
    rw [changeChecks_eq hprev]
    exact if_pos hle
  · intro h preview hpreview hcan hrejected
    obtain ⟨inst, newPlan, hprev, hup⟩ := previewChangePlan_ok hpreview hcan
    let remainingDays := calculateRemainingDaysPrecise (inst.expiresAt.getD 0) e.now
    have hlt : inst.dailyPrice < newPlan.dailyPrice :=
      (upgrade_kept_iff remainingDays).mpr (h inst newPlan hprev) hup
    rw [changeChecks_eq hprev, if_neg (not_le.mpr hlt)] at hrejected
    cases hrejected

end Preview

/-! ## A change that fails -/

theorem attempt_ok {α : Type} {fault : Option String} {x : Except String α} {a : α}
    (h : attempt fault x = .ok a) : x = .ok a := by
  cases fault with
  | none => exact h
  | some message => cases h

section Failed

variable {s s' : PlanSystem} {e : Env} {userId newPlanId : ℕ} {faults : ChangeFaults}
  {inst : Instance} {newPlan : Plan} {progress : ChangeProgress} {message : String}

theorem increment_neg (s : PlanSystem) (delta : Resources) :
    (s.increment delta).increment (-delta) = s := by
  simp [PlanSystem.increment, HostCapacity.withUsed]

theorem patch_incusLimits (hsync : s.incus = s.inst.incusLimits) :
    s.patch s.inst.cpu s.inst.memory s.inst.disk = s := by
  have hlimits : (⟨s.inst.cpu, s.inst.memory, s.inst.disk⟩ : IncusLimits) = s.incus := hsync.symm
  simp [PlanSystem.patch, hlimits]

/-- Where the inner `try` fails, and what it has done by then. -/
theorem tryChange_error
    (h : s.tryChange e faults userId inst newPlan = (progress, .error message)) :
    let delta := s.inst.planDelta newPlan.resources
    let reserved : ChangeProgress :=
      if delta ≠ 0 then { system := s.increment delta, hostReserved := true } else { system := s }
    progress = { system := s } ∨ progress = reserved ∨
      progress = { reserved with
        system := reserved.system.patch newPlan.resources.cpu newPlan.resources.memory
          newPlan.resources.disk
        incusApplied := true } := by
  intro delta reserved
  unfold PlanSystem.tryChange at h
  dsimp only at h
  split at h
  · exact .inl (congrArg Prod.fst h).symm
  split at h
  · exact .inr (.inl (congrArg Prod.fst h).symm)
  split at h
  · exact .inr (.inr (congrArg Prod.fst h).symm)
  · cases h

/-- What has been reserved is given back, and Incus gets the limits of the row. -/
theorem rollBack_tryChange
    (h : s.tryChange e faults userId inst newPlan = (progress, .error message)) :
    s.rollBack progress (s.inst.planDelta newPlan.resources) = s ∨
      s.rollBack progress (s.inst.planDelta newPlan.resources) =
        s.patch s.inst.cpu s.inst.memory s.inst.disk := by
  have hcases := tryChange_error h
  dsimp only at hcases
  by_cases hdelta : s.inst.planDelta newPlan.resources = 0
  · simp only [hdelta, ne_eq, not_true, if_false] at hcases ⊢
    obtain rfl | rfl | rfl := hcases
    · exact .inl rfl
    · exact .inl rfl
    · exact .inr rfl
  · simp only [ne_eq, hdelta, not_false_eq_true, if_true] at hcases
    obtain rfl | rfl | rfl := hcases
    · exact .inl rfl
    · exact .inl (increment_neg s _)
    · exact .inr (increment_neg (s.patch s.inst.cpu s.inst.memory s.inst.disk) _)

/-- What does not fail without faults does not depend on them. -/
theorem hostChecks_ok (h : s.hostChecks faults newPlan = .ok ()) :
    s.hostChecks (fun _ => none) newPlan = .ok () := by
  unfold PlanWorld.hostChecks at h ⊢
  obtain ⟨hdisk, h⟩ := ok_of_guard h
  rw [if_neg hdisk]
  have h := attempt_ok h
  split at h
  · cases h
  · rename_i hfits
    simp only [attempt]

/-- A request that fails leaves all as it was, if Incus had the limits of the row. -/
theorem changePlanRoute_error
    (hsync : s.ReachesHost userId newPlanId → s.incus = s.inst.incusLimits)
    (h : s.changePlanRoute e faults userId newPlanId = (s', .error message)) : s' = s := by
  unfold PlanSystem.changePlanRoute at h
  split at h
  · exact (congrArg Prod.fst h).symm
  rename_i inst newPlan hchecks
  split at h
  · exact (congrArg Prod.fst h).symm
  rename_i hhost
  split at h
  · rename_i progress _ htry
    obtain rfl : s.rollBack progress _ = s' := congrArg Prod.fst h
    have hincus := hsync ⟨inst, newPlan, hchecks, hostChecks_ok hhost⟩
    rcases rollBack_tryChange htry with hback | hback
    · exact hback
    · exact hback.trans (patch_incusLimits hincus)
  · cases h

/-- A request that fails after Incus was patched leaves the limits of the row there. -/
theorem inSync_of_failed
    (h : ∀ faults s' message,
      s.changePlanRoute e faults userId newPlanId = (s', .error message) → s' = s)
    (hreach : s.ReachesHost userId newPlanId) : s.incus = s.inst.incusLimits := by
  obtain ⟨inst, newPlan, hchecks, hhost⟩ := hreach
  let faults : ChangeFaults := fun step => if step = .findPackage then some "" else none
  have hhost' : s.hostChecks faults newPlan = .ok () := hhost
  have hroute : ∃ s', s.changePlanRoute e faults userId newPlanId = (s', .error "") ∧
      s'.incus = s.inst.incusLimits := by
    simp only [PlanSystem.changePlanRoute, hchecks, hhost']
    by_cases hdelta : s.inst.planDelta newPlan.resources = 0
    · simp [PlanSystem.tryChange, hdelta, faults, PlanWorld.performPlanChange, attempt,
        PlanSystem.rollBack, PlanSystem.patch, HostedInstance.incusLimits]
    · simp [PlanSystem.tryChange, hdelta, faults, PlanWorld.performPlanChange, attempt,
        PlanSystem.rollBack, PlanSystem.patch, HostedInstance.incusLimits, PlanSystem.increment]
  obtain ⟨s', hs', hincus⟩ := hroute
  rwa [h faults s' "" hs'] at hincus

end Failed

/-! ## A change that succeeds -/

section Changed

variable {w w' : PlanWorld} {s s' : PlanSystem} {e : Env} {userId newPlanId : ℕ}
  {faults : ChangeFaults} {inst : Instance} {oldPlan newPlan : Plan} {priceDiff : Cents}
  {changeResult : PlanChangeCalcResult} {progress : ChangeProgress}

/-- The bill of a change. -/
def changeRecord (e : Env) (instanceId userId : ℕ) (periodEnd : Time)
    (changeResult : PlanChangeCalcResult) : BillingRecord :=
  { id := 0, instanceId, userId
    type := if changeResult.isUpgrade then .upgrade else .downgrade
    amount := if 0 < changeResult.priceDiff then changeResult.priceDiff else 0
    periodStart := e.now, periodEnd, createdAt := e.now }

theorem planTransaction_ok
    (h : w.planTransaction e faults userId inst oldPlan newPlan changeResult = .ok w') :
    ∃ db monthlyTrafficLimit periodEnd,
      settlePlanChange w.db e userId w.inst.id inst.hostId changeResult.priceDiff = .ok db ∧
      w' = { w with
        db := (db.updateInstance w.inst.id (·.changedTo newPlan.toPackagePlan)).createBillingRecord
          (changeRecord e w.inst.id userId periodEnd changeResult)
        inst := (w.changedColumns e.now oldPlan newPlan monthlyTrafficLimit).inst
        limits := (w.changedColumns e.now oldPlan newPlan monthlyTrafficLimit).limits
        traffic := (w.changedColumns e.now oldPlan newPlan monthlyTrafficLimit).traffic } := by
  have h := attempt_ok h
  obtain ⟨-, h⟩ := ok_of_guard h
  have h := attempt_ok h
  split at h
  · cases h
  rename_i db hsettle
  have h := attempt_ok h
  split at h
  · cases h
  rename_i monthlyTrafficLimit _
  have h := attempt_ok h
  obtain ⟨-, h⟩ := ok_of_guard h
  have h := attempt_ok h
  split at h
  · cases h
  rename_i periodEnd _
  exact ⟨db, monthlyTrafficLimit, periodEnd, hsettle, (Except.ok.inj (attempt_ok h)).symm⟩

/-- The difference that the quote has capped is the one that the response shows. -/
theorem refund_of_quoted
    (h : calculatePlanChange w.db e.now w.inst.id inst newPlan.toPackagePlan = some changeResult) :
    changeResult.priceDiff < 0 →
      min |changeResult.priceDiff| (getMaxRefundable w.db w.inst.id) = -changeResult.priceDiff := by
  intro hneg
  obtain ⟨details, -, rfl⟩ := calculatePlanChange_inv h
  have hcap := getMaxRefundable_nonneg w.db w.inst.id
  dsimp only at hneg ⊢
  by_cases hdetails : details.priceDiff < 0
  · rw [if_pos hdetails, abs_neg, neg_neg, abs_of_nonneg (le_min (abs_nonneg _) hcap)]
    exact min_eq_left (min_le_right _ _)
  · rw [if_neg hdetails] at hneg
    exact absurd hneg hdetails

theorem performPlanChange_inv
    (h : w.performPlanChange e faults userId inst newPlan = .ok (w', priceDiff)) :
    ∃ oldPlan changeResult, inst.packagePlanId.bind w.plans = some oldPlan ∧
      calculatePlanChange w.db e.now w.inst.id inst newPlan.toPackagePlan = some changeResult ∧
      changeResult.priceDiff = priceDiff ∧
      w.planTransaction e faults userId inst oldPlan newPlan changeResult = .ok w' := by
  have h := attempt_ok h
  obtain ⟨-, h⟩ := ok_of_guard h
  obtain ⟨-, h⟩ := ok_of_guard h
  obtain ⟨-, h⟩ := ok_of_guard h
  obtain ⟨-, h⟩ := ok_of_guard h
  obtain ⟨-, h⟩ := ok_of_guard h
  obtain ⟨-, h⟩ := ok_of_guard h
  have h := attempt_ok h
  split at h
  · cases h
  rename_i oldPlan hold
  split at h
  · cases h
  rename_i changeResult hquote
  split at h
  · cases h
  rename_i w₁ htransaction
  simp only [Except.ok.injEq, Prod.mk.injEq] at h
  obtain ⟨rfl, hdiff⟩ := h
  refine ⟨oldPlan, changeResult, hold, hquote, ?_, htransaction⟩
  split at hdiff
  · rename_i hneg
    rw [← hdiff, refund_of_quoted hquote hneg, neg_neg]
  · exact hdiff

/-- The refund of a settlement, followed by the row and the bill. -/
theorem settlePlanChange_refunded {db db₁ : Db} {i hostId : ℕ} (record : BillingRecord)
    (f : Instance → Instance) (hplain : record.type ≠ .refund) (hneg : priceDiff < 0)
    (hcap : min |priceDiff| (getMaxRefundable db i) = -priceDiff)
    (h : settlePlanChange db e userId i hostId priceDiff = .ok db₁) :
    ∃ log refund logs records, RefundPosted db ((db₁.updateInstance i f).createBillingRecord record)
        userId i (-priceDiff) log refund logs records ∧
      db₁.billingRecords = db.billingRecords ++ [refund] := by
  obtain ⟨-, hcharged | ⟨-, hzero, -⟩ | ⟨-, r, -, hr, ⟨log, refund, logs, hposted⟩, -⟩⟩ :=
    settlePlanChange_spec h
  · exact absurd hcharged.1 (not_lt.mpr hneg.le)
  · rw [← abs_of_neg hneg, hcap] at hzero
    exact absurd (neg_pos.mpr hneg) (not_lt.mpr hzero)
  rw [← abs_of_neg hneg, hcap] at hr
  subst hr
  have hrow := Untouched.updateInstance db₁ i f
  have hrecord := createBillingRecord_plain (db₁.updateInstance i f) record hplain
  refine ⟨log, refund, logs, [{ record with id := (db₁.updateInstance i f).nextId }], ?_,
    hposted.posting.billingRecords⟩
  exact
    { hposted with
      posting := by simpa using (hposted.posting.trans hrow.posting).trans hrecord.posting
      records := hrecord.records }

/-- The tables when the transaction begins. -/
def PlanSystem.reservedFor (s : PlanSystem) (newPlan : Plan) : PlanWorld :=
  (s.increment (s.inst.planDelta newPlan.resources)).toPlanWorld

/-- A transaction that is committed has put the new plan in force. -/
theorem planTransaction_inForce
    (hquote : calculatePlanChange s.db e.now s.inst.id inst newPlan.toPackagePlan =
      some changeResult)
    (h : (s.reservedFor newPlan).planTransaction e faults userId inst oldPlan newPlan changeResult =
      .ok w) :
    PlanInForce s
      { w with
        incus := ⟨newPlan.resources.cpu, newPlan.resources.memory, newPlan.resources.disk⟩ }
      e userId inst oldPlan newPlan changeResult.priceDiff := by
  obtain ⟨db, monthlyTrafficLimit, periodEnd, hsettled, rfl⟩ := planTransaction_ok h
  -- the settlement does not look at the host
  have hsettle : settlePlanChange s.db e userId s.inst.id inst.hostId changeResult.priceDiff =
      .ok db := hsettled
  set record := changeRecord e s.inst.id userId periodEnd changeResult with hrecord
  have htype : record.type = .upgrade ∨ record.type = .downgrade := by
    simp only [hrecord, changeRecord]
    split
    · exact .inl rfl
    · exact .inr rfl
  have hplain : record.type ≠ .refund := by
    rcases htype with htype | htype <;> simp [htype]
  have hamount : record.amount = max 0 changeResult.priceDiff := by
    simp only [hrecord, changeRecord]
    split
    · rename_i hpos
      exact (max_eq_right hpos.le).symm
    · rename_i hpos
      exact (max_eq_left (not_lt.mp hpos)).symm
  have hinstances : db.instances = s.db.instances := (settlePlanChange_spec hsettle).1
  have hrefund := fun hneg => settlePlanChange_refunded record
    (·.changedTo newPlan.toPackagePlan) hplain hneg (refund_of_quoted hquote hneg) hsettle
  exact
    { quoted := ⟨changeResult.isUpgrade, hquote⟩
      paid := fun hnonneg => (settlePlanChange_debited hnonneg hsettle).1
      refunded := fun hneg =>
        let ⟨log, refund, logs, records, hposted, _⟩ := hrefund hneg
        ⟨log, refund, logs, records, hposted⟩
      recorded := by
        refine ⟨{ record with id := db.nextId }, rfl, rfl, htype, hamount, ?_⟩
        rcases le_or_gt 0 changeResult.priceDiff with hnonneg | hneg
        · refine ⟨[], ?_, fun _ => rfl⟩
          obtain ⟨-, hrecords, -⟩ := settlePlanChange_debited hnonneg hsettle
          rw [List.append_nil, ← hrecords]
          rfl
        · obtain ⟨log, refund, logs, records, -, hrecords⟩ := hrefund hneg
          refine ⟨[refund], ?_, fun hnonneg => absurd hneg (not_lt.mpr hnonneg)⟩
          rw [← hrecords]
          rfl
      billing := by
        show Function.update db.instances s.inst.id ((db.instances s.inst.id).map _) = _
        rw [hinstances]
        rfl
      columns := ⟨monthlyTrafficLimit, rfl⟩
      incus := rfl
      host := by
        show s.host.withUsed (s.host.used + s.inst.planDelta newPlan.resources) =
          s.host.withUsed (s.host.used +
            ((s.inst.changedPlan newPlan.resources).resources - s.inst.resources))
        rw [s.inst.resources_changedPlan newPlan.resources] }

/-- Nothing is reserved for a plan that changes nothing. -/
theorem reservedFor_eq :
    s.reservedFor newPlan = (if s.inst.planDelta newPlan.resources ≠ 0 then
      s.increment (s.inst.planDelta newPlan.resources) else s).toPlanWorld := by
  by_cases hdelta : s.inst.planDelta newPlan.resources = 0
  · simp [PlanSystem.reservedFor, hdelta, PlanSystem.increment, HostCapacity.withUsed]
  · simp [PlanSystem.reservedFor, hdelta]

theorem tryChange_ok (h : s.tryChange e faults userId inst newPlan = (progress, .ok priceDiff)) :
    ∃ w, (s.reservedFor newPlan).performPlanChange e faults userId inst newPlan =
        .ok (w, priceDiff) ∧
      progress.system = { w with
        incus := ⟨newPlan.resources.cpu, newPlan.resources.memory, newPlan.resources.disk⟩ } := by
  unfold PlanSystem.tryChange at h
  dsimp only at h
  split at h
  · cases h
  split at h
  · cases h
  split at h
  · cases h
  rename_i w priceDiff' hperform
  simp only [Prod.mk.injEq, Except.ok.injEq] at h
  obtain ⟨rfl, rfl⟩ := h
  refine ⟨w, ?_, rfl⟩
  rw [reservedFor_eq, ← hperform]
  by_cases hdelta : s.inst.planDelta newPlan.resources = 0
  · simp only [hdelta, ne_eq, not_true, if_false, PlanSystem.patch]
  · simp only [hdelta, ne_eq, not_false_eq_true, if_true, PlanSystem.patch]

theorem changeChecks_ok (h : w.changeChecks userId newPlanId = .ok (inst, newPlan)) :
    w.db.instances w.inst.id = some inst ∧ w.plans newPlanId = some newPlan := by
  unfold PlanWorld.changeChecks at h
  split at h
  · cases h
  rename_i inst' newPlan' hgates
  obtain ⟨-, h⟩ := ok_of_guard h
  obtain ⟨-, h⟩ := ok_of_guard h
  cases h
  unfold PlanWorld.changeGates at hgates
  split at hgates
  · cases hgates
  rename_i inst' hinst
  obtain ⟨-, hgates⟩ := ok_of_guard hgates
  obtain ⟨-, hgates⟩ := ok_of_guard hgates
  split at hgates
  · cases hgates
  rename_i newPlan' hplan
  obtain ⟨-, hgates⟩ := ok_of_guard hgates
  obtain ⟨-, hgates⟩ := ok_of_guard hgates
  obtain ⟨-, hgates⟩ := ok_of_guard hgates
  obtain ⟨-, hgates⟩ := ok_of_guard hgates
  obtain ⟨-, hgates⟩ := ok_of_guard hgates
  cases hgates
  exact ⟨hinst, hplan⟩

theorem changePlanRoute_ok
    (h : s.changePlanRoute e faults userId newPlanId = (s', .ok priceDiff)) :
    ∃ inst oldPlan newPlan, s.db.instances s.inst.id = some inst ∧
      inst.packagePlanId.bind s.plans = some oldPlan ∧ s.plans newPlanId = some newPlan ∧
      PlanInForce s s' e userId inst oldPlan newPlan priceDiff := by
  unfold PlanSystem.changePlanRoute at h
  split at h
  · cases h
  rename_i inst newPlan hchecks
  split at h
  · cases h
  split at h
  · cases h
  rename_i progress priceDiff' htry
  simp only [Prod.mk.injEq, Except.ok.injEq] at h
  obtain ⟨rfl, rfl⟩ := h
  obtain ⟨hinst, hplan⟩ := changeChecks_ok hchecks
  obtain ⟨w, hperform, hsystem⟩ := tryChange_ok htry
  obtain ⟨oldPlan, changeResult, hold, hquote, rfl, htransaction⟩ := performPlanChange_inv hperform
  rw [hsystem]
  exact ⟨inst, oldPlan, newPlan, hinst, hold, hplan,
    planTransaction_inForce hquote htransaction⟩

end Changed

/-! ## The result -/

/-- The instance 5 of the user 1, at 1.11 a month, and a plan of 13.31 a year; its referral code
is worth 5 percent. -/
def discountedSystem : PlanSystem where
  db :=
    { users := fun id => if id ∈ [1, 2] then some { balance := 100000000000 } else none
      hosts := fun id => if id = 1 then some { userId := 2 } else none
      instances := fun id =>
        if id = 5 then
          some { userId := 1, hostId := 1, status := .running, packageId := some 1
                 packagePlanId := some 1, billingPrice := some 111, billingCycle := some 1
                 expiresAt := some (20 * msPerDay) }
        else none
      affBindings := fun id => if id = 5 then some 1 else none
      affCodes := fun id =>
        if id = 1 then some { discountRate := 1 / 20, enabled := true } else none
      affRebateEnabled := true }
  plans := fun id =>
    if id ∈ [1, 2] then
      some
        { id, packageId := 1, price := if id = 1 then 11100 else 133100
          billingCycle := if id = 1 then 1 else 12
          resources := { cpu := 100 * id, memory := 1024 * id, disk := 10240 * id, portLimit := 5 }
          snapshotLimit := id, backupLimit := id, siteLimit := id, trafficLimit := 1000 * id }
    else none
  inst := { id := 5, userId := 1, status := .running, cpu := 100, memory := 1024, disk := 10240
            portLimit := some 5 }
  limits := { snapshotLimit := some 1, backupLimit := some 1, siteLimit := some 1 }
  traffic := { id := 5, hostId := 1, userId := 1, status := .running
               monthlyTrafficLimit := some 1000 }
  host := { cpuAllowanceMax := some 1000, memoryMax := some 100000, storageSize := some 1000
            used := ⟨100, 1024, 10240, 5⟩ }
  incus := ⟨100, 1024, 10240⟩

end Incudal
