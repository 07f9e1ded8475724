/-
# `PriceAdjustment` — the administrator changes what an instance costs

The price of one instance or of a batch is replaced, and on request the
difference over the remaining days is settled: a rise is charged, a fall is
refunded.  What is settled comes from list prices and days alone
(`calculateInstancePriceAdjustmentQuote`); unlike every other refund it is not
held against what the user has paid.

Both routes settle in the same way (`settlePriceDiff`).  The batch first
previews all its items and is refused as a whole when one of them fails, when
the caller's versions are stale, or when a user could not pay.
-/
import Incudal.RefundCap

namespace Incudal

/-! ## The quote -/

/-- `InstancePriceAdjustmentQuote`, as far as the routes use it. -/
structure InstancePriceAdjustmentQuote where
  oldPrice : Cents
  newPrice : Cents
  priceDiff : Cents
deriving DecidableEq, Repr

/-- `instance.billingCycle || 1`. -/
def Instance.cycleOrOne (inst : Instance) : ℕ :=
  match inst.billingCycle with
  | some 0 => 1
  | some billingCycle => billingCycle
  | none => 1

/-- `calculateInstancePriceAdjustmentQuote`. -/
def calculateInstancePriceAdjustmentQuote (db : Db) (now : Time) (instanceId : ℕ) (inst : Instance)
    (newPrice : ℚ) (settleBalance : Bool) : InstancePriceAdjustmentQuote :=
  let oldPrice := inst.billingPrice.getD 0
  let roundedNewPrice := roundCurrency newPrice
  let discountRate := if db.affRebateEnabled then affDiscountRate db instanceId else 0
  let priceDiff :=
    match settleBalance, inst.expiresAt with
    | true, some expiresAt =>
        let remainingDays := calculateRemainingDaysPrecise expiresAt now
        if 0 < remainingDays then
          calculatePriceDiff oldPrice inst.cycleOrOne roundedNewPrice inst.cycleOrOne remainingDays
            discountRate
        else 0
    | _, _ => 0
  { oldPrice, newPrice := roundedNewPrice, priceDiff }

/-! ## The settlement -/

/-- The refund of a lower price.  What the owner gives back is computed before
the refund is recorded. -/
def refundPriceDiff (db : Db) (e : Env) (instanceId : ℕ) (inst : Instance) (user : User)
    (refundAmount : Cents) : Except String Db :=
  let balanceAfter := user.balance + toUnits refundAmount
  let balanceBefore := roundUnits (balanceAfter - toUnits refundAmount)
  let (db, balanceLogId) :=
    creditRefund db inst.userId instanceId refundAmount balanceBefore balanceAfter
  let hostedRefundAmount := calculateHostedRefundAmount db e.now instanceId refundAmount true
  let db := db.createBillingRecord
    { id := 0, instanceId, userId := inst.userId, type := .refund, amount := -refundAmount
      periodStart := e.now, periodEnd := inst.expiresAt.getD e.now
      balanceLogId := some balanceLogId, createdAt := e.now }
  if 0 < hostedRefundAmount then
    match deductHostingBalance db e inst.hostId hostedRefundAmount instanceId with
    | .error message => .error message
    | .ok (db, _) => .ok db
  else .ok db

/-- The settlement of a difference that is not zero. -/
def settlePriceDiff (db : Db) (e : Env) (instanceId : ℕ) (inst : Instance) (priceDiff : Cents) :
    Except String Db :=
  match db.users inst.userId with
  | none => .error "用户不存在"
  | some user =>
      if 0 < priceDiff then
        match chargeBalance db inst.userId instanceId priceDiff with
        | .error _ => .error "用户余额不足"
        | .ok (db, balanceLogId) =>
            let db := db.createBillingRecord
              { id := 0, instanceId, userId := inst.userId, type := .upgrade, amount := priceDiff
                periodStart := e.now, periodEnd := inst.expiresAt.getD e.now
                balanceLogId := some balanceLogId, createdAt := e.now }
            .ok (processHostingIncome db e inst.hostId priceDiff instanceId)
      else refundPriceDiff db e instanceId inst user |priceDiff|

/-- The row with its new price. -/
def Instance.repriced (newPrice : Cents) (inst : Instance) : Instance :=
  { inst with billingPrice := some newPrice, version := inst.version + 1 }

/-! ## One instance -/

/-- The prices that the routes accept, in cents. -/
def isValidNewPrice (newPrice : ℚ) : Bool := decide (0 ≤ newPrice) && decide (newPrice ≤ 10000000)

/-- What the routes demand of a row. -/
def Instance.repricingError (inst : Instance) : Option String :=
  if inst.status = .deleted then some "实例已删除"
  else if !inst.isPackageInstance then some "免费实例不支持修改价格"
  else none

/-- `POST /api/admin/instances/:id/update-price`; `inst` is the row as it was
read before the transaction. -/
def updatePrice (db : Db) (e : Env) (instanceId : ℕ) (inst : Instance) (newPrice : ℚ)
    (settleBalance : Bool) (expectedVersion : Option ℕ) : Except String Db :=
  if !isValidNewPrice newPrice then .error "价格必须是 0-100000 之间的数字"
  else if let some message := inst.repricingError then .error message
  else if expectedVersion.any (· ≠ inst.version) then .error "实例计费信息已变化，请刷新后重试"
  else
    let oldPrice := inst.billingPrice.getD 0
    let roundedNewPrice := roundCurrency newPrice
    if oldPrice = roundedNewPrice then .ok db
    else
      match db.instances instanceId with
      | none => .error "实例不存在"
      | some currentInstance =>
          if let some message := currentInstance.repricingError then .error message
          else if currentInstance.billingPrice.getD 0 ≠ oldPrice
              ∨ currentInstance.version ≠ expectedVersion.getD inst.version then
            .error "实例计费信息已变化，请刷新后重试"
          else
            let quote := calculateInstancePriceAdjustmentQuote db e.now instanceId currentInstance
              roundedNewPrice settleBalance
            if 0 < quote.priceDiff ∧ db.balanceOf currentInstance.userId < toUnits quote.priceDiff then
              .error "用户余额不足"
            else
              let db := db.updateInstance instanceId (·.repriced roundedNewPrice)
              if settleBalance = true ∧ quote.priceDiff ≠ 0 then
                settlePriceDiff db e instanceId currentInstance quote.priceDiff
              else .ok db

/-! ## A batch -/

inductive BatchPriceUpdateItemStatus
  | ready | unchanged | failed
deriving DecidableEq, Repr

/-- `BatchPriceUpdateItem`; `userId` is that of the user found for the row. -/
structure BatchPriceUpdateItem where
  id : ℕ
  userId : Option ℕ
  newPrice : Cents
  priceDiff : Cents
  status : BatchPriceUpdateItemStatus
  error : Option String := none
  instanceVersion : Option ℕ := none
deriving DecidableEq, Repr

/-- The preview of one item. -/
def previewItem (db : Db) (now : Time) (newPrice : Cents) (settleBalance : Bool) (instanceId : ℕ) :
    BatchPriceUpdateItem :=
  match db.instances instanceId with
  | none =>
      { id := instanceId, userId := none, newPrice, priceDiff := 0, status := .failed
        error := some "实例不存在" }
  | some inst =>
      let userId := (db.users inst.userId).map fun _ => inst.userId
      match inst.repricingError with
      | some message =>
          { id := instanceId, userId, newPrice, priceDiff := 0, status := .failed
            error := some message }
      | none =>
          let quote :=
            calculateInstancePriceAdjustmentQuote db now instanceId inst newPrice settleBalance
          { id := instanceId, userId, newPrice := quote.newPrice, priceDiff := quote.priceDiff
            status := if quote.oldPrice = quote.newPrice then .unchanged else .ready
            instanceVersion := some inst.version }

/-- What a user owes or gets over the items that have not failed. -/
def netDiff (items : List BatchPriceUpdateItem) (userId : ℕ) : Cents :=
  Keyed.total BatchPriceUpdateItem.priceDiff
    (items.filter fun item => item.status != .failed && item.userId == some userId)

/-- `insufficientBalance`: the balance after all of it, rounded, is below zero
by more than a ten-thousandth of a yuan. -/
def insufficientBalance (db : Db) (items : List BatchPriceUpdateItem) (userId : ℕ) : Bool :=
  decide (roundUnits (db.balanceOf userId - toUnits (netDiff items userId)) < -10000)

/-- `canSubmit`: all items are valid, and every user with a difference can pay. -/
def canSubmit (db : Db) (items : List BatchPriceUpdateItem) : Bool :=
  !items.isEmpty && items.all (·.status != .failed)
    && items.all fun item =>
      item.priceDiff == 0 || item.userId.all fun userId => !insufficientBalance db items userId

/-- An id is taken once. -/
def addId (ids : List ℕ) (id : ℕ) : List ℕ := if id ∈ ids then ids else ids ++ [id]

/-- `parseBatchPriceUpdateBody`. -/
def parseBatchPriceUpdateBody (instanceIds : List ℕ) (newPrice : ℚ)
    (expectations : List (ℕ × ℕ)) : Except String (List ℕ × Cents × List (ℕ × ℕ)) :=
  if instanceIds.isEmpty then .error "请选择要修改价格的实例"
  else if 100 < instanceIds.length then .error "单次最多只能修改 100 个实例"
  else if instanceIds.any (· == 0) then .error "实例ID列表包含无效值"
  else if !isValidNewPrice newPrice then .error "价格必须是 0-100000 之间的数字"
  else if expectations.any fun expectation => expectation.1 ∉ instanceIds then
    .error "预览版本参数无效"
  else .ok (instanceIds.foldl addId [], roundCurrency newPrice, expectations)

/-- The order of the settlements: by user, refunds before charges. -/
def BatchPriceUpdateItem.settlesBefore (a b : BatchPriceUpdateItem) : Bool :=
  decide (a.userId.getD 0 < b.userId.getD 0)
    || (a.userId == b.userId && decide (a.priceDiff ≤ b.priceDiff))

/-- The conditional update of one row. -/
def repriceItem (db : Db) (item : BatchPriceUpdateItem) : Except String Db :=
  if (db.instances item.id).map (·.version) ≠ item.instanceVersion then
    .error s!"实例 #{item.id} 计费信息已变化，请刷新后重试"
  else .ok (db.updateInstance item.id (·.repriced item.newPrice))

/-- The batch up to its settlements: the rows are rewritten, and the items that
are to be settled remain. -/
def prepareBatch (db : Db) (e : Env) (instanceIds : List ℕ) (newPrice : ℚ) (settleBalance : Bool)
    (expectations : List (ℕ × ℕ)) : Except String (Db × List BatchPriceUpdateItem) :=
  match parseBatchPriceUpdateBody instanceIds newPrice expectations with
  | .error message => .error message
  | .ok (ids, newPrice, expectations) =>
      let items := ids.map (previewItem db e.now newPrice settleBalance)
      let versioned := items.filter (·.status != .failed)
      let expectedVersion (id : ℕ) := (expectations.find? (·.1 == id)).map (·.2)
      if versioned.any fun item => (expectedVersion item.id).isNone then .error "请先刷新预览后再提交"
      else if versioned.any fun item => expectedVersion item.id != item.instanceVersion then
        .error "实例计费信息已变化，请刷新预览后重试"
      else if !canSubmit db items then .error "批量修改价格预览未通过，请检查失败项或用户余额"
      else
        let changedItems := items.filter (·.status == .ready)
        match changedItems.foldlM repriceItem db with
        | .error message => .error message
        | .ok db =>
            .ok (db, if settleBalance then
                (changedItems.filter fun item => item.userId.isSome && item.priceDiff != 0).insertionSort
                  fun a b => a.settlesBefore b
              else [])

/-- The settlement of one item. -/
def settleItem (e : Env) (db : Db) (item : BatchPriceUpdateItem) : Except String Db :=
  match db.instances item.id with
  | none => .error s!"实例 #{item.id} 宿主机不存在"
  | some inst => settlePriceDiff db e item.id inst item.priceDiff

/-- `POST /api/admin/instances/batch-update-price`. -/
def batchUpdatePrice (db : Db) (e : Env) (instanceIds : List ℕ) (newPrice : ℚ)
    (settleBalance : Bool) (expectations : List (ℕ × ℕ)) : Except String Db :=
  match prepareBatch db e instanceIds newPrice settleBalance expectations with
  | .error message => .error message
  | .ok (db, settlementItems) => settlementItems.foldlM (settleItem e) db

end Incudal
