/-
# `Settlement` — the refunds

Five paths credit a user a refund for an instance: the settlement of a
user's own deletion, that of a deletion by host owner or administrator, the
settlement of a failed provision, the refund that an administrator issues, and
the refund of a downgrade (which stands with the plan change in `Charges`).
Each writes the credit, its balance log and a refund billing record, and takes
hosting income back; they differ in how the amount is capped and in the order
of the writes.
-/
import Incudal.Postings
import Incudal.Refundable

namespace Incudal

/-! ## The writes they share -/

/-- The instance as a settlement is given it. -/
structure BillingInstance where
  id : ℕ
  userId : ℕ
  hostId : ℕ
deriving DecidableEq, Repr

/-- The credit of a refund with its balance log, whose id is returned. -/
def creditRefund (db : Db) (userId instanceId : ℕ) (refundAmount : Cents)
    (balanceBefore balanceAfter : Units) : Db × ℕ :=
  (db.updateUser userId fun u => { u with balance := u.balance + toUnits refundAmount }).createBalanceLog
    { id := 0, userId, type := .refund, amount := toUnits refundAmount, balanceBefore, balanceAfter
      instanceId := some instanceId }

/-- The billing record of a refund. -/
def recordRefund (db : Db) (e : Env) (userId instanceId : ℕ) (refundAmount : Cents)
    (balanceLogId : ℕ) : Db :=
  db.createBillingRecord
    { id := 0, instanceId, userId, type := .refund, amount := -refundAmount
      periodStart := e.now, periodEnd := e.now, balanceLogId := some balanceLogId
      createdAt := e.now }

/-- The settlements pay out in this order: credit, log, record, hosting income. -/
def payRefund (db : Db) (e : Env) (inst : BillingInstance) (refundAmount hostedRefundAmount : Cents)
    (occasion : String) : Except String Db :=
  match db.users inst.userId with
  | none => .error (s!"User {inst.userId} not found during " ++ occasion)
  | some user =>
      let oldBalance := user.balance
      let newBalance := roundUnits (oldBalance + toUnits refundAmount)
      let (db, balanceLogId) :=
        creditRefund db inst.userId inst.id refundAmount oldBalance newBalance
      let db := recordRefund db e inst.userId inst.id refundAmount balanceLogId
      match deductHostingBalance db e inst.hostId hostedRefundAmount inst.id with
      | .error message => .error message
      | .ok (db, _) => .ok db

/-- `clearDeletionBillingStateData`. -/
def clearDeletionBillingState (inst : Instance) : Instance :=
  { inst with
      deletionBillingPending := false, deletionRemoteDeleted := true
      deletionBillingMode := none, deletionRefundableValue := none, deletionFeeWaiver := false }

/-- The remote instance is known to be gone. -/
def deletionConfirmed (db : Db) (instanceId : ℕ) : Bool :=
  match db.instances instanceId with
  | some inst => inst.deletionRemoteDeleted
  | none => false

/-! ## Deletions -/

/-- What the settlement of a user's deletion reports. -/
structure DestroySettlement where
  refundAmount : Cents
  feeAmount : Cents
  isFirstTime : Bool
deriving DecidableEq, Repr

/-- `settleUserDestroyBilling`. -/
def settleUserDestroyBilling (db : Db) (e : Env) (requestUserId : ℕ) (inst : BillingInstance)
    (refundableValue : ℚ) (feeWaiver : Bool) : Except String (Db × DestroySettlement) :=
  if !deletionConfirmed db inst.id then .error "REMOTE_DELETION_NOT_CONFIRMED"
  else
    match db.destroyRecords.find? fun r => r.instanceId == inst.id with
    | some existingDestroy =>
        .ok (db.updateInstance inst.id clearDeletionBillingState,
          { refundAmount := existingDestroy.refundAmount, feeAmount := existingDestroy.feeAmount
            isFirstTime := existingDestroy.isFirstTime })
    | none =>
        let isFirstTime := !db.destroyRecords.any fun r => r.userId == requestUserId
        let maxRefundable := getMaxRefundable db inst.id
        let refundableValue := roundCurrency (min (max 0 refundableValue) maxRefundable)
        let feeAmount :=
          if !feeWaiver && !isFirstTime then roundCurrency (refundableValue / 10) else 0
        let refundAmount := max 0 (refundableValue - feeAmount)
        let hostedRefundAmount := calculateHostedRefundAmount db e.now inst.id refundAmount false
        let paid :=
          if 0 < refundAmount then
            payRefund db e inst refundAmount hostedRefundAmount "instance destroy refund"
          else .ok db
        match paid with
        | .error message => .error message
        | .ok db =>
            let db := db.createDestroyRecord
              { userId := requestUserId, hostId := inst.hostId, instanceId := inst.id
                refundAmount, feeAmount, isFirstTime }
            .ok (db.updateInstance inst.id clearDeletionBillingState,
              { refundAmount, feeAmount, isFirstTime })

/-- `settlePrivilegedDeletionBilling`. -/
def settlePrivilegedDeletionBilling (db : Db) (e : Env) (inst : BillingInstance)
    (requestedRefundAmount : ℚ) : Except String (Db × Cents) :=
  if !deletionConfirmed db inst.id then .error "REMOTE_DELETION_NOT_CONFIRMED"
  else
    let maxRefundable := getMaxRefundable db inst.id
    let refundAmount := roundCurrency (min (max 0 requestedRefundAmount) maxRefundable)
    let hostedRefundAmount := calculateHostedRefundAmount db e.now inst.id refundAmount true
    let paid :=
      if 0 < refundAmount then
        payRefund db e inst refundAmount hostedRefundAmount "privileged deletion refund"
      else .ok db
    match paid with
    | .error message => .error message
    | .ok db => .ok (db.updateInstance inst.id clearDeletionBillingState, refundAmount)

/-- `completeHourlyDeletionBilling`. -/
def completeHourlyDeletionBilling (db : Db) (instanceId : ℕ) : Except String Db :=
  match db.instances instanceId with
  | none => .ok db
  | some inst =>
      if !inst.deletionBillingPending then .ok db
      else if !inst.deletionRemoteDeleted then .error "REMOTE_DELETION_NOT_CONFIRMED"
      else if inst.deletionBillingMode ≠ some .hourlyClose then
        .error "INVALID_HOURLY_DELETION_BILLING_MODE"
      else .ok (db.updateInstance instanceId clearDeletionBillingState)

/-! ## Failed provisions -/

/-- `releaseOfficialCouponUsageByInstance`: the usages go, the counts of the
coupons used for a purchase go down, and the discounts are summed. -/
def releaseOfficialCouponUsageByInstance (db : Db) (instanceId : ℕ) :
    Except String (Db × Option Cents) :=
  let usages := db.couponUsages.filter fun u => u.instanceId == some instanceId
  if usages.isEmpty then .ok (db, none)
  else
    let purchases := (usages.filter fun u => u.type == .purchase).map (·.couponId)
    let db := { db with couponUsages := db.couponUsages.filter fun u => u.instanceId != some instanceId }
    let released := purchases.dedup.foldlM
      (fun usedCount couponId =>
        let usageCount := purchases.count couponId
        match usedCount couponId with
        | some n =>
            if usageCount ≤ n then
              Except.ok (Function.update usedCount couponId (some (n - usageCount)))
            else .error s!"Official coupon {couponId} usage count is inconsistent"
        | none => .error s!"Official coupon {couponId} usage count is inconsistent")
      db.couponUsedCount
    match released with
    | .error message => .error message
    | .ok couponUsedCount =>
        .ok ({ db with couponUsedCount }, some (Keyed.total CouponUsage.discountAmount usages))

/-- The reversal of one commission. -/
def reverseAffCommission (db : Db) (instanceId : ℕ) (commissionLog : AffLog) : Except String Db :=
  if db.affLogs.any fun l =>
      l.instanceId == some instanceId && l.type == .refund && l.reverses == some commissionLog.id
  then .ok db
  else
    match db.users commissionLog.userId with
    | none => .error s!"AFF 用户 {commissionLog.userId} 不存在"
    | some user =>
        let amount := commissionLog.amount
        let db := db.updateUser commissionLog.userId fun u =>
          { u with affBalance := u.affBalance - amount }
        let log : AffLog :=
          { id := db.nextId, userId := commissionLog.userId, affCodeId := commissionLog.affCodeId
            instanceId := some instanceId, type := .refund, amount := -amount
            originalAmount := commissionLog.originalAmount, balanceBefore := user.affBalance
            balanceAfter := user.affBalance - amount, reverses := some commissionLog.id }
        let db := { db with affLogs := db.affLogs ++ [log], nextId := db.nextId + 1 }
        match commissionLog.affCodeId with
        | none => .ok db
        | some codeId =>
            .ok { db with
              affCodes := Function.update db.affCodes codeId ((db.affCodes codeId).map fun code =>
                { code with totalEarnings := code.totalEarnings - amount
                            usedCount := code.usedCount - 1 }) }

/-- `reverseAffCommissionForInstance`. -/
def reverseAffCommissionForInstance (db : Db) (instanceId : ℕ) : Except String Db :=
  let commissions := db.affLogs.filter fun l =>
    l.instanceId == some instanceId && l.type == .newPurchase && decide (0 < l.amount)
  commissions.foldlM (fun db commissionLog => reverseAffCommission db instanceId commissionLog) db

/-- `claimCreatingInstanceForCleanup`; `reclaim` says that a pending claim is
old enough to be taken over. -/
def claimCreatingInstanceForCleanup (db : Db) (instanceId : ℕ) (reclaim : Bool) : Db × Bool :=
  match db.instances instanceId with
  | none => (db, false)
  | some inst =>
      if inst.status = .creating ∧ (inst.provisioningCleanupPending = false ∨ reclaim = true) then
        (db.updateInstance instanceId fun i =>
          { i with provisioningCleanupPending := true, version := i.version + 1 }, true)
      else (db, false)

/-- The hourly branch of `failCreatingInstanceAndRefund`: what is prepaid goes
back to the balance and the account is closed. -/
def releaseFailedHourly (db : Db) (instanceId userId : ℕ) : Except String (Db × Units) :=
  match Keyed.lookup HourlyBillingAccount.instanceId instanceId db.hourlyAccounts with
  | none => .ok (db, 0)
  | some account =>
      let prepaid := account.prepaidBalance
      if 0 < prepaid then
        match db.users userId with
        | none => .error s!"User {userId} not found during hourly provision refund"
        | some user =>
            let db := db.updateUser userId fun u =>
              { u with balance := u.balance + prepaid
                       hourlyReservedBalance := u.hourlyReservedBalance - prepaid }
            let (db, _) := db.createBalanceLog
              { id := 0, userId, type := .hourlyRelease, amount := prepaid
                balanceBefore := user.balance, balanceAfter := user.balance + prepaid
                instanceId := some instanceId }
            .ok ({ db with
              hourlyAccounts := Keyed.modify HourlyBillingAccount.instanceId instanceId
                (fun a => { a with
                  status := .closed, prepaidBalance := 0, totalReleased := a.totalReleased + prepaid
                  nextSettlementAt := none, version := a.version + 1 }) db.hourlyAccounts }, prepaid)
      else
        .ok ({ db with
          hourlyAccounts := Keyed.modify HourlyBillingAccount.instanceId instanceId
            (fun a => { a with status := .closed, nextSettlementAt := none, version := a.version + 1 })
            db.hourlyAccounts }, 0)

/-- What a failed provision of a package instance is charged with, less what
has been refunded: over the instance alone, not over its lineage. -/
def failedProvisionRefund (db : Db) (instanceId : ℕ) : Cents :=
  let records := db.billingRecords.filter fun r => r.instanceId == instanceId
  let chargedAmount := Keyed.total (fun r : BillingRecord => max 0 r.amount)
    (records.filter fun r => r.type == .newPurchase)
  let refunded := Keyed.total (fun r : BillingRecord => |r.amount|)
    (records.filter fun r => r.type == .refund)
  max 0 (chargedAmount - refunded)

/-- `failCreatingInstanceAndRefund`: `none` when the instance is not claimed,
else the amount that went back to the user. -/
def failCreatingInstanceAndRefund (db : Db) (e : Env) (instanceId : ℕ) :
    Except String (Db × Option Units) :=
  match db.instances instanceId with
  | none => .ok (db, none)
  | some inst =>
      if ¬(inst.status = .creating ∧ inst.provisioningCleanupPending = true) then .ok (db, none)
      else
        let db := db.updateInstance instanceId fun i =>
          { i with status := .error, provisioningCleanupPending := false, version := i.version + 1 }
        match inst.billingMode with
        | .hourly =>
            match releaseFailedHourly db instanceId inst.userId with
            | .error message => .error message
            | .ok (db, released) => .ok (db, some released)
        | .package =>
            let refundAmount := failedProvisionRefund db instanceId
            match releaseOfficialCouponUsageByInstance db instanceId with
            | .error message => .error message
            | .ok (db, releasedDiscount) =>
                match reverseAffCommissionForInstance db instanceId with
                | .error message => .error message
                | .ok db =>
                    if refundAmount ≤ 0 then .ok (db, some 0)
                    else
                      match payRefund db e ⟨instanceId, inst.userId, inst.hostId⟩ refundAmount
                          (refundAmount + releasedDiscount.getD 0) "failed provision refund" with
                      | .error message => .error message
                      | .ok db => .ok (db, some (toUnits refundAmount))

/-! ## The administrator's refund -/

/-- `isValidCurrencyAmount`, on cents: positive, and two decimals up to an error
of 10⁻⁹ yuan. -/
def isValidCurrencyAmount (value : ℚ) : Bool :=
  decide (0 < value) && decide (value ≤ 9999999999)
    && decide (|value - round value| < 1 / 10000000)

/-- The transaction of the administrator's refund route. -/
def adminRefundTransaction (db : Db) (e : Env) (instanceId : ℕ) (refundAmount : Cents) :
    Except String Db :=
  match db.instances instanceId with
  | none => .error "INSTANCE_NOT_FOUND"
  | some currentInstance =>
      match db.users currentInstance.userId with
      | none => .error "INSTANCE_NOT_FOUND"
      | some user =>
          if currentInstance.status = .deleted ∨ currentInstance.deletionBillingPending = true then
            .error "INSTANCE_NOT_REFUNDABLE_AFTER_DELETION"
          else if getMaxRefundable db instanceId < refundAmount then .error "REFUND_LIMIT_EXCEEDED"
          else
            let newBalance := user.balance + toUnits refundAmount
            let oldBalance := roundUnits (newBalance - toUnits refundAmount)
            let (db, balanceLogId) :=
              creditRefund db currentInstance.userId instanceId refundAmount oldBalance newBalance
            -- the refund's own record must not be there yet
            let hostedRefundAmount := calculateHostedRefundAmount db e.now instanceId refundAmount true
            let deducted :=
              if 0 < hostedRefundAmount then
                deductHostingBalance db e currentInstance.hostId hostedRefundAmount instanceId
              else .ok (db, none)
            match deducted with
            | .error message => .error message
            | .ok (db, _) =>
                .ok (recordRefund db e currentInstance.userId instanceId refundAmount balanceLogId)

/-- `POST /api/admin/instances/:id/refund`. -/
def adminRefund (db : Db) (e : Env) (instanceId : ℕ) (amount : ℚ) : Except String Db :=
  if !isValidCurrencyAmount amount then .error "退款金额必须大于0"
  else adminRefundTransaction db e instanceId (roundCurrency amount)

/-! ## What a refund posts -/

/-- A refund of `r`: one refund log, one refund record that names it, and next
to them logs and records of other types. -/
structure RefundPosted (db db' : Db) (userId instanceId : ℕ) (r : Cents) (log : BalanceLog)
    (record : BillingRecord) (logs : List BalanceLog) (records : List BillingRecord) : Prop where
  posting : Posting db db' (log :: logs) (record :: records)
  user : (db.users userId).isSome
  logType : log.type = .refund
  logUser : log.userId = userId
  logAmount : log.amount = toUnits r
  recordType : record.type = .refund
  recordInstance : record.instanceId = instanceId
  recordAmount : record.amount = -r
  recordLog : record.balanceLogId = some log.id
  logs : ∀ l ∈ logs, l.type ≠ .refund
  records : ∀ b ∈ records, b.type ≠ .refund

/-- Nothing is refunded. -/
structure PlainPosted (db db' : Db) (logs : List BalanceLog) (records : List BillingRecord) :
    Prop where
  posting : Posting db db' logs records
  logs : ∀ l ∈ logs, l.type ≠ .refund
  records : ∀ b ∈ records, b.type ≠ .refund

/-- No money moves: users, ledgers, hosting and coupons are as they were. -/
structure Untouched (db db' : Db) : Prop where
  posting : Posting db db' [] []
  hosting : SameHosting db db'
  usages : db'.couponUsages = db.couponUsages

/-- Nothing is charged or refunded, and no hosting income moves; coupon usages may go. -/
structure QuietPosted (db db' : Db) : Prop where
  posted : ∃ logs records, PlainPosted db db' logs records ∧ ∀ b ∈ records, b.isCharge = false
  hosting : SameHosting db db'
  usages : db'.couponUsages.Sublist db.couponUsages

/-- A refund of `r` for the instance `k`, with at most `hosted` taken back from
its host's owner. -/
structure RefundPaid (db db' : Db) (hostId userId k : ℕ) (r hosted : Cents) : Prop where
  posted : ∃ log record logs records, RefundPosted db db' userId k r log record logs records ∧
    ∀ b ∈ records, b.isCharge = false
  taken : HostingTaken db db' hostId k hosted
  usages : db'.couponUsages.Sublist db.couponUsages

section Posted

variable {db db' db'' : Db} {e : Env} {inst : BillingInstance}
  {userId instanceId balanceLogId : ℕ} {r refundAmount hostedRefundAmount : Cents}
  {balanceBefore balanceAfter : Units} {occasion : String} {log : BalanceLog}
  {record : BillingRecord} {logs logs' : List BalanceLog} {records records' : List BillingRecord}

theorem PlainPosted.of_posting (h : Posting db db' [] []) : PlainPosted db db' [] [] :=
  ⟨h, by simp, by simp⟩

theorem Untouched.refl (db : Db) : Untouched db db := ⟨.refl db, .refl db, rfl⟩

theorem Untouched.trans (h : Untouched db db') (h' : Untouched db' db'') : Untouched db db'' :=
  ⟨by simpa using h.posting.trans h'.posting, h.hosting.trans h'.hosting,
    h'.usages.trans h.usages⟩

/-- Writing to tables that hold no money. -/
theorem Untouched.of_eq (husers : db'.users = db.users) (hlogs : db'.balanceLogs = db.balanceLogs)
    (hrecords : db'.billingRecords = db.billingRecords) (hnext : db.nextId ≤ db'.nextId)
    (hhistory : db'.history = db.history) (hhosts : db'.hosts = db.hosts)
    (hhosting : db'.hostingLogs = db.hostingLogs) (husages : db'.couponUsages = db.couponUsages) :
    Untouched db db' :=
  ⟨.of_eq husers hlogs hrecords hnext hhistory, .of_eq hhosts husers hhosting, husages⟩

theorem Untouched.quiet (h : Untouched db db') : QuietPosted db db' where
  posted := ⟨[], [], .of_posting h.posting, by simp⟩
  hosting := h.hosting
  usages := h.usages ▸ List.Sublist.refl _

theorem Untouched.updateInstance (db : Db) (instanceId : ℕ) (f : Instance → Instance) :
    Untouched db (db.updateInstance instanceId f) := .of_eq rfl rfl rfl le_rfl rfl rfl rfl rfl

theorem PlainPosted.trans (h : PlainPosted db db' logs records)
    (h' : PlainPosted db' db'' logs' records') :
    PlainPosted db db'' (logs ++ logs') (records ++ records') where
  posting := h.posting.trans h'.posting
  logs l hl := (List.mem_append.mp hl).elim (h.logs l) (h'.logs l)
  records b hb := (List.mem_append.mp hb).elim (h.records b) (h'.records b)

theorem RefundPosted.trans_plain
    (h : RefundPosted db db' userId instanceId r log record logs records)
    (h' : PlainPosted db' db'' logs' records') :
    RefundPosted db db'' userId instanceId r log record (logs ++ logs') (records ++ records') :=
  { h with
    posting := h.posting.trans h'.posting
    logs := fun l hl => (List.mem_append.mp hl).elim (h.logs l) (h'.logs l)
    records := fun b hb => (List.mem_append.mp hb).elim (h.records b) (h'.records b) }

/-- What comes before may post nothing. -/
theorem RefundPosted.of_quiet (h : Posting db db' [] [])
    (h' : RefundPosted db' db'' userId instanceId r log record logs records) :
    RefundPosted db db'' userId instanceId r log record logs records :=
  { h' with
    posting := by simpa using h.trans h'.posting
    user := (h.users userId).symm.trans h'.user }

/-- What a refund settlement leaves behind, put together. -/
theorem RefundPaid.of_posted {hostId : ℕ} {hosted : Cents}
    (h : ∃ log record logs, RefundPosted db db' userId instanceId r log record logs [])
    (htaken : HostingTaken db db' hostId instanceId hosted)
    (husages : db'.couponUsages.Sublist db.couponUsages) (hkeep : Untouched db' db'') :
    RefundPaid db db'' hostId userId instanceId r hosted := by
  obtain ⟨log, record, logs, hposted⟩ := h
  refine ⟨⟨log, record, _, _, hposted.trans_plain (.of_posting hkeep.posting), by simp⟩,
    htaken.then_same hkeep.hosting, ?_⟩
  rw [hkeep.usages]
  exact husages

/-- What is refunded no longer can be. -/
theorem RefundPosted.getMaxRefundable
    (h : RefundPosted db db' userId instanceId r log record logs []) (hr : 0 < r)
    (hcap : r ≤ getMaxRefundable db instanceId) :
    getMaxRefundable db' instanceId = getMaxRefundable db instanceId - r := by
  have hself : record.instanceId ∈ db.lineage instanceId :=
    h.recordInstance ▸ self_mem_lineage db.history instanceId
  have hconsumed : consumedAmount (db.lineage instanceId) [record] = 0 := by
    rw [consumedAmount_cons_refund h.recordType]
    rfl
  simp only [Incudal.getMaxRefundable] at hcap ⊢
  rw [lineage_eq h.posting.history, h.posting.billingRecords, refundedAmount_append,
    consumedAmount_append, hconsumed,
    refundedAmount_cons_refund hr.le h.recordType h.recordAmount h.records, if_pos hself]
  have hle : r ≤ consumedAmount (db.lineage instanceId) db.billingRecords
      - refundedAmount (db.lineage instanceId) db.billingRecords :=
    (le_max_iff.mp hcap).resolve_left (not_le.mpr hr)
  rw [max_eq_right (hr.le.trans hle), max_eq_right (by linarith)]
  ring

theorem Posting.updateInstance (db : Db) (instanceId : ℕ) (f : Instance → Instance) :
    Posting db (db.updateInstance instanceId f) [] [] := .of_eq rfl rfl rfl le_rfl rfl

theorem creditRefund_posting (instanceId : ℕ) (refundAmount : Cents)
    (balanceBefore balanceAfter : Units) (huser : (db.users userId).isSome) :
    let credited := creditRefund db userId instanceId refundAmount balanceBefore balanceAfter
    ∃ log : BalanceLog, Posting db credited.1 [log] [] ∧ log.id = credited.2 ∧
      log.type = .refund ∧ log.userId = userId ∧ log.amount = toUnits refundAmount ∧
      HostingFrame db credited.1 ∧ SameHosting db credited.1 := by
  have hhosting := SameHosting.updateUser db userId
    (fun u => { u with balance := u.balance + toUnits refundAmount }) fun _ => rfl
  exact ⟨_, .updateBalance db userId _ _ rfl (fun _ => rfl) huser, rfl, rfl, rfl, rfl,
    ⟨rfl, rfl, rfl, rfl, rfl, rfl, rfl⟩, hhosting.trans (.of_eq rfl rfl rfl)⟩

theorem recordRefund_posting (db : Db) (e : Env) (userId instanceId : ℕ) (refundAmount : Cents)
    (balanceLogId : ℕ) :
    ∃ record : BillingRecord,
      Posting db (recordRefund db e userId instanceId refundAmount balanceLogId) [] [record] ∧
      record.type = .refund ∧ record.instanceId = instanceId ∧ record.amount = -refundAmount ∧
      record.balanceLogId = some balanceLogId ∧
      HostingFrame db (recordRefund db e userId instanceId refundAmount balanceLogId) ∧
      SameHosting db (recordRefund db e userId instanceId refundAmount balanceLogId) :=
  ⟨_, .createBillingRecord db _, rfl, rfl, rfl, rfl, ⟨rfl, rfl, rfl, rfl, rfl, rfl, rfl⟩,
    .of_eq rfl rfl rfl⟩

/-- A deduction of hosting income refunds nothing. -/
theorem deductHostingBalance_plain {hostId : ℕ} {amount : Cents}
    {result : Option HostingBalanceDeductionResult}
    (h : deductHostingBalance db e hostId amount instanceId = .ok (db', result)) :
    (∃ logs, PlainPosted db db' logs []) ∧ HostingFrame db db' ∧
      HostingTaken db db' hostId instanceId amount := by
  obtain ⟨⟨logs, hposting, htypes⟩, hframe, htaken⟩ := deductHostingBalance_spec h
  refine ⟨⟨logs, hposting, fun l hl => ?_, by simp⟩, hframe, htaken⟩
  simp [htypes l hl]

theorem payRefund_spec
    (h : payRefund db e inst refundAmount hostedRefundAmount occasion = .ok db') :
    (∃ log record logs,
      RefundPosted db db' inst.userId inst.id refundAmount log record logs []) ∧
      HostingFrame db db' ∧ HostingTaken db db' inst.hostId inst.id hostedRefundAmount := by
  unfold payRefund at h
  cases huser : db.users inst.userId with
  | none => simp [huser] at h
  | some user =>
      simp only [huser] at h
      have hsome : (db.users inst.userId).isSome := by simp [huser]
      obtain ⟨log, hlog, hid, htype, hlogUser, hamount, hframe, hhosting⟩ :=
        creditRefund_posting inst.id refundAmount user.balance
          (roundUnits (user.balance + toUnits refundAmount)) hsome
      generalize creditRefund db inst.userId inst.id refundAmount user.balance
        (roundUnits (user.balance + toUnits refundAmount)) = credited at h hlog hid hframe hhosting
      obtain ⟨db₁, balanceLogId⟩ := credited
      obtain ⟨record, hrecord, hrtype, hrinst, hramount, hrlog, hrframe, hrhosting⟩ :=
        recordRefund_posting db₁ e inst.userId inst.id refundAmount balanceLogId
      dsimp only at h
      split at h
      · cases h
      rename_i db₂ result hdeduct
      cases h
      obtain ⟨⟨logs, hplain⟩, hdframe, htaken⟩ := deductHostingBalance_plain hdeduct
      refine ⟨⟨log, record, logs, ?_⟩, (hframe.trans hrframe).trans hdframe,
        htaken.of_same (hhosting.trans hrhosting)⟩
      exact
        { posting := by simpa using (hlog.trans hrecord).trans hplain.posting
          user := hsome
          logType := htype
          logUser := hlogUser
          logAmount := hamount
          recordType := hrtype
          recordInstance := hrinst
          recordAmount := hramount
          recordLog := by rw [hrlog, hid]
          logs := hplain.logs
          records := by simp }

end Posted

/-! ## What each refund path does -/

section Paths

variable {db db' : Db} {e : Env} {inst : BillingInstance} {requestUserId instanceId : ℕ}
  {refundableValue requestedRefundAmount : ℚ} {feeWaiver : Bool} {r : Cents}
  {settled : DestroySettlement}

theorem getMaxRefundable_nonneg (db : Db) (instanceId : ℕ) : 0 ≤ getMaxRefundable db instanceId :=
  le_max_left _ _

/-- Capping commutes with rounding: the cap is a whole number of cents. -/
theorem roundCurrency_cap (value : ℚ) (cap : Cents) :
    roundCurrency (min (max 0 value) cap) = min (roundCurrency (max 0 value)) cap :=
  Rounding.halfAway_min_int

/-- What a settlement of a privileged deletion does: nothing without the
confirmation; otherwise it refunds the capped amount, if there is any, and
clears the marks. -/
theorem settlePrivilegedDeletionBilling_spec
    (h : settlePrivilegedDeletionBilling db e inst requestedRefundAmount = .ok (db', r)) :
    deletionConfirmed db inst.id = true ∧
    r = min (roundCurrency (max 0 requestedRefundAmount)) (getMaxRefundable db inst.id) ∧
    ∃ db₁, db' = db₁.updateInstance inst.id clearDeletionBillingState ∧ HostingFrame db db₁ ∧
      ((r ≤ 0 ∧ db₁ = db) ∨
        (0 < r ∧ (∃ log record logs, RefundPosted db db₁ inst.userId inst.id r log record logs []) ∧
          HostingTaken db db₁ inst.hostId inst.id
            (calculateHostedRefundAmount db e.now inst.id r true))) := by
  unfold settlePrivilegedDeletionBilling at h
  split at h
  · cases h
  rename_i hconfirmed
  rw [Bool.not_eq_true', Bool.not_eq_false] at hconfirmed
  dsimp only at h
  rw [roundCurrency_cap] at h
  split at h
  · cases h
  rename_i db₁ hpaid
  cases h
  refine ⟨hconfirmed, rfl, db₁, rfl, ?_⟩
  split at hpaid
  · rename_i hpos
    obtain ⟨hposted, hframe, htaken⟩ := payRefund_spec hpaid
    exact ⟨hframe, .inr ⟨hpos, hposted, htaken⟩⟩
  · rename_i hpos
    cases hpaid
    exact ⟨.refl db, .inl ⟨not_lt.mp hpos, rfl⟩⟩

/-- What a settlement of a user's deletion does: a second one finds the record
of the first and pays nothing; the first pays the capped value less the fee. -/
theorem settleUserDestroyBilling_spec
    (h : settleUserDestroyBilling db e requestUserId inst refundableValue feeWaiver
      = .ok (db', settled)) :
    deletionConfirmed db inst.id = true ∧
    ∃ db₁, HostingFrame db db₁ ∧
      ((db₁ = db ∧ db' = db.updateInstance inst.id clearDeletionBillingState ∧
          ∃ record, db.destroyRecords.find? (fun r => r.instanceId == inst.id) = some record ∧
            settled = ⟨record.refundAmount, record.feeAmount, record.isFirstTime⟩) ∨
        (db.destroyRecords.find? (fun r => r.instanceId == inst.id) = none ∧
          settled.refundAmount ≤ getMaxRefundable db inst.id ∧
          db' = (db₁.createDestroyRecord
            ⟨requestUserId, inst.hostId, inst.id, settled.refundAmount, settled.feeAmount,
              settled.isFirstTime⟩).updateInstance inst.id clearDeletionBillingState ∧
          ((settled.refundAmount ≤ 0 ∧ db₁ = db) ∨
            (0 < settled.refundAmount ∧ (∃ log record logs,
              RefundPosted db db₁ inst.userId inst.id settled.refundAmount log record logs []) ∧
              HostingTaken db db₁ inst.hostId inst.id
                (calculateHostedRefundAmount db e.now inst.id settled.refundAmount false))))) := by
  unfold settleUserDestroyBilling at h
  split at h
  · cases h
  rename_i hconfirmed
  rw [Bool.not_eq_true', Bool.not_eq_false] at hconfirmed
  refine ⟨hconfirmed, ?_⟩
  cases hfind : db.destroyRecords.find? fun r => r.instanceId == inst.id with
  | some record =>
      simp only [hfind] at h
      cases h
      exact ⟨db, .refl db, .inl ⟨rfl, rfl, record, rfl, rfl⟩⟩
  | none =>
      simp only [hfind] at h
      rw [roundCurrency_cap] at h
      generalize hvalue : min (roundCurrency (max 0 refundableValue)) (getMaxRefundable db inst.id)
        = value at h
      have hvalue0 : 0 ≤ value := by
        rw [← hvalue]
        exact le_min (roundCurrency_nonneg (le_max_left _ _)) (getMaxRefundable_nonneg _ _)
      have hcap : value ≤ getMaxRefundable db inst.id := by
        rw [← hvalue]
        exact min_le_right _ _
      have hfee : 0 ≤ (if (!feeWaiver && !!db.destroyRecords.any fun r => r.userId == requestUserId)
          = true then roundCurrency ((value : ℚ) / 10) else 0) := by
        split
        · exact roundCurrency_nonneg (div_nonneg (by exact_mod_cast hvalue0) (by norm_num))
        · exact le_rfl
      generalize (if (!feeWaiver && !!db.destroyRecords.any fun r => r.userId == requestUserId)
          = true then roundCurrency ((value : ℚ) / 10) else 0) = feeAmount at h hfee
      split at h
      · cases h
      rename_i db₁ hpaid
      cases h
      have hle : max 0 (value - feeAmount) ≤ getMaxRefundable db inst.id :=
        max_le (getMaxRefundable_nonneg _ _) ((sub_le_self _ hfee).trans hcap)
      split at hpaid
      · rename_i hpos
        obtain ⟨hposted, hframe, htaken⟩ := payRefund_spec hpaid
        exact ⟨db₁, hframe, .inr ⟨rfl, hle, rfl, .inr ⟨hpos, hposted, htaken⟩⟩⟩
      · rename_i hpos
        cases hpaid
        exact ⟨db, .refl db, .inr ⟨rfl, hle, rfl, .inl ⟨not_lt.mp hpos, rfl⟩⟩⟩

/-- A monadic fold keeps any reflexive and transitive relation that its step keeps. -/
theorem rel_of_foldlM {α β : Type} {R : β → β → Prop} (hrefl : ∀ b, R b b)
    (htrans : ∀ a b c, R a b → R b c → R a c) {f : β → α → Except String β}
    (hf : ∀ b a b', f b a = .ok b' → R b b') {l : List α} {b b' : β}
    (h : List.foldlM f b l = .ok b') : R b b' := by
  induction l generalizing b with
  | nil =>
      cases h
      exact hrefl _
  | cons a l ih =>
      rw [List.foldlM_cons] at h
      cases hstep : f b a with
      | error message => simp [hstep, bind, Except.bind] at h
      | ok b₁ =>
          simp only [hstep, bind, Except.bind] at h
          exact htrans _ _ _ (hf b a b₁ hstep) (ih h)

theorem releaseOfficialCouponUsageByInstance_spec {discount : Option Cents}
    (h : releaseOfficialCouponUsageByInstance db instanceId = .ok (db', discount)) :
    Posting db db' [] [] ∧ SameHosting db db' ∧ db'.instances = db.instances ∧
      db'.couponUsages.Sublist db.couponUsages ∧
      discount.getD 0 = couponDiscounts [instanceId] db.couponUsages := by
  have hof (u : CouponUsage) :
      u.instanceId.any (· ∈ [instanceId]) = (u.instanceId == some instanceId) := by
    cases u.instanceId with
    | none => rfl
    | some j => simp [Bool.beq_eq_decide_eq]
  unfold releaseOfficialCouponUsageByInstance at h
  dsimp only at h
  split at h
  · rename_i hempty
    cases h
    refine ⟨.refl db, .refl db, rfl, List.Sublist.refl _, ?_⟩
    simp only [couponDiscounts, hof, List.isEmpty_iff.mp hempty]
    rfl
  split at h
  · cases h
  · cases h
    refine ⟨.of_eq rfl rfl rfl le_rfl rfl, .of_eq rfl rfl rfl, rfl, List.filter_sublist, ?_⟩
    simp only [couponDiscounts, hof]
    rfl

theorem reverseAffCommission_spec {commissionLog : AffLog}
    (h : reverseAffCommission db instanceId commissionLog = .ok db') :
    Untouched db db' ∧ db'.instances = db.instances := by
  unfold reverseAffCommission at h
  split at h
  · cases h
    exact ⟨.refl db, rfl⟩
  cases huser : db.users commissionLog.userId with
  | none => simp [huser] at h
  | some user =>
      simp only [huser] at h
      have huserPosting : Untouched db (db.updateUser commissionLog.userId fun u =>
          { u with affBalance := u.affBalance - commissionLog.amount }) :=
        ⟨.updateUser db _ _ fun _ => rfl, .updateUser db _ _ fun _ => rfl, rfl⟩
      split at h
      all_goals
        cases h
        exact ⟨huserPosting.trans (.of_eq rfl rfl rfl (Nat.le_succ _) rfl rfl rfl rfl), rfl⟩

theorem reverseAffCommissionForInstance_spec
    (h : reverseAffCommissionForInstance db instanceId = .ok db') :
    Untouched db db' ∧ db'.instances = db.instances := by
  refine rel_of_foldlM (R := fun a b : Db => Untouched a b ∧ b.instances = a.instances)
    (fun b => ⟨.refl b, rfl⟩) ?_ (fun b a b' hstep => reverseAffCommission_spec hstep) h
  rintro a b c ⟨hp, hi⟩ ⟨hp', hi'⟩
  exact ⟨hp.trans hp', hi'.trans hi⟩

theorem releaseFailedHourly_spec {userId : ℕ} {released : Units}
    (h : releaseFailedHourly db instanceId userId = .ok (db', released)) :
    (∃ logs, PlainPosted db db' logs []) ∧ SameHosting db db' ∧ db'.instances = db.instances ∧
      db'.couponUsages = db.couponUsages := by
  unfold releaseFailedHourly at h
  split at h
  · cases h
    exact ⟨⟨[], .of_posting (.refl db)⟩, .refl db, rfl, rfl⟩
  rename_i account _
  dsimp only at h
  split at h
  · split at h
    · cases h
    · rename_i user huser
      cases h
      have hlog : Posting db ((db.updateUser userId fun u =>
          { u with balance := u.balance + account.prepaidBalance
                   hourlyReservedBalance := u.hourlyReservedBalance - account.prepaidBalance }).createBalanceLog
          { id := 0, userId, type := .hourlyRelease, amount := account.prepaidBalance
            balanceBefore := user.balance, balanceAfter := user.balance + account.prepaidBalance
            instanceId := some instanceId }).1 _ [] :=
        .updateBalance db userId _ _ rfl (fun _ => rfl) (by simp [huser])
      have hhosting := SameHosting.updateUser db userId (fun u =>
        { u with balance := u.balance + account.prepaidBalance
                 hourlyReservedBalance := u.hourlyReservedBalance - account.prepaidBalance })
        fun _ => rfl
      refine ⟨⟨_, hlog.keep rfl rfl rfl le_rfl rfl, ?_, by simp⟩,
        hhosting.trans (.of_eq rfl rfl rfl), rfl, rfl⟩
      simp
  · cases h
    exact ⟨⟨[], .of_posting (.of_eq rfl rfl rfl le_rfl rfl)⟩, .of_eq rfl rfl rfl, rfl, rfl⟩

/-- What the settlement of a failed provision does: nothing to a row that is
not claimed; otherwise the row becomes an error, and what the instance has been
charged and not refunded goes back. -/
theorem failCreatingInstanceAndRefund_spec {result : Option Units}
    (h : failCreatingInstanceAndRefund db e instanceId = .ok (db', result)) :
    result = none ∧ db' = db ∨ ∃ row, db.instances instanceId = some row ∧ row.status = .creating ∧
      db'.instances = (db.updateInstance instanceId fun i =>
        { i with status := .error, provisioningCleanupPending := false
                 version := i.version + 1 }).instances ∧
      db'.couponUsages.Sublist db.couponUsages ∧
      ((∃ logs, PlainPosted db db' logs []) ∧ SameHosting db db' ∨
        0 < failedProvisionRefund db instanceId ∧ (∃ log record logs,
          RefundPosted db db' row.userId instanceId (failedProvisionRefund db instanceId)
            log record logs []) ∧
          HostingTaken db db' row.hostId instanceId (failedProvisionRefund db instanceId
            + couponDiscounts [instanceId] db.couponUsages)) := by
  unfold failCreatingInstanceAndRefund at h
  split at h
  · cases h
    exact .inl ⟨rfl, rfl⟩
  rename_i row hrow
  split at h
  · cases h
    exact .inl ⟨rfl, rfl⟩
  rename_i hclaimed
  rw [not_not] at hclaimed
  refine .inr ⟨row, hrow, hclaimed.1, ?_⟩
  generalize hupdate : (db.updateInstance instanceId fun i =>
    { i with status := .error, provisioningCleanupPending := false, version := i.version + 1 })
      = db₁ at h ⊢
  have hquiet : Untouched db db₁ := hupdate ▸ .updateInstance db instanceId _
  have hrefund : failedProvisionRefund db₁ instanceId = failedProvisionRefund db instanceId := by
    rw [← hupdate]
    rfl
  dsimp only at h
  split at h
  · split at h
    · cases h
    · rename_i hreleased
      cases h
      obtain ⟨⟨logs, hlogs⟩, hhosting, hinstances, husages⟩ := releaseFailedHourly_spec hreleased
      refine ⟨hinstances, ?_, .inl ⟨⟨_, (PlainPosted.of_posting hquiet.posting).trans hlogs⟩,
        hquiet.hosting.trans hhosting⟩⟩
      rw [husages, hquiet.usages]
  · rw [hrefund] at h
    split at h
    · cases h
    rename_i db₂ discount hcoupon
    split at h
    · cases h
    rename_i db₃ haff
    obtain ⟨hp₂, hh₂, hi₂, hu₂, hdiscount⟩ := releaseOfficialCouponUsageByInstance_spec hcoupon
    obtain ⟨hp₃, hi₃⟩ := reverseAffCommissionForInstance_spec haff
    have hquiet₃ : Posting db db₃ [] [] := by
      simpa using (hquiet.posting.trans hp₂).trans hp₃.posting
    have hhosting₃ := (hquiet.hosting.trans hh₂).trans hp₃.hosting
    have husages₃ : db₃.couponUsages.Sublist db.couponUsages := by
      rw [hp₃.usages, ← hquiet.usages]
      exact hu₂
    split at h
    · cases h
      exact ⟨hi₃.trans hi₂, husages₃, .inl ⟨⟨_, .of_posting hquiet₃⟩, hhosting₃⟩⟩
    · rename_i hpos
      split at h
      · cases h
      rename_i db₄ hpaid
      cases h
      obtain ⟨⟨log, record, logs, hposted⟩, hframe, htaken⟩ := payRefund_spec hpaid
      rw [hdiscount, hquiet.usages] at htaken
      exact ⟨hframe.instances.trans (hi₃.trans hi₂), hframe.couponUsages ▸ husages₃,
        .inr ⟨not_le.mp hpos, ⟨log, record, logs, hposted.of_quiet hquiet₃⟩,
          htaken.of_same hhosting₃⟩⟩

/-- What an administrator's refund does: it refunds the amount, which is within
the cap, for an instance that is not deleted. -/
theorem adminRefund_spec {amount : ℚ} (h : adminRefund db e instanceId amount = .ok db') :
    ∃ row, db.instances instanceId = some row ∧ row.status ≠ .deleted ∧
      0 ≤ roundCurrency amount ∧ roundCurrency amount ≤ getMaxRefundable db instanceId ∧
      HostingFrame db db' ∧ (∃ log record logs,
        RefundPosted db db' row.userId instanceId (roundCurrency amount) log record logs []) ∧
      HostingTaken db db' row.hostId instanceId
        (calculateHostedRefundAmount db e.now instanceId (roundCurrency amount) true) := by
  unfold adminRefund at h
  split at h
  · cases h
  rename_i hvalid
  have hpos : 0 ≤ roundCurrency amount := by
    simp only [isValidCurrencyAmount, Bool.not_eq_true', Bool.not_eq_false, Bool.and_eq_true,
      decide_eq_true_eq] at hvalid
    exact roundCurrency_nonneg hvalid.1.1.le
  generalize roundCurrency amount = r at h hpos ⊢
  unfold adminRefundTransaction at h
  split at h
  · cases h
  rename_i row hrow
  split at h
  · cases h
  rename_i user huser
  obtain ⟨hopen, h⟩ := ok_of_guard h
  obtain ⟨hcap, h⟩ := ok_of_guard h
  rw [not_or] at hopen
  refine ⟨row, hrow, hopen.1, hpos, not_lt.mp hcap, ?_⟩
  have hsome : (db.users row.userId).isSome := by simp [huser]
  obtain ⟨log, hlog, hid, htype, hlogUser, hamount, hframe, hhosting⟩ :=
    creditRefund_posting instanceId r (roundUnits (user.balance + toUnits r - toUnits r))
      (user.balance + toUnits r) hsome
  dsimp only at h
  generalize creditRefund db row.userId instanceId r
    (roundUnits (user.balance + toUnits r - toUnits r)) (user.balance + toUnits r)
      = credited at h hlog hid hframe hhosting
  obtain ⟨db₁, balanceLogId⟩ := credited
  dsimp only at h hframe hhosting
  rw [calculateHostedRefundAmount_congr (by simpa using hlog.billingRecords) hframe.couponUsages
    hlog.history] at h
  generalize calculateHostedRefundAmount db e.now instanceId r true = hosted at h ⊢
  split at h
  · cases h
  rename_i db₂ result hdeduct
  cases h
  have hplain : (∃ logs, PlainPosted db₁ db₂ logs []) ∧ HostingFrame db₁ db₂ ∧
      HostingTaken db₁ db₂ row.hostId instanceId hosted := by
    split at hdeduct
    · exact deductHostingBalance_plain hdeduct
    · cases hdeduct
      exact ⟨⟨[], .of_posting (.refl _)⟩, .refl _, .refl _ _ _ _⟩
  obtain ⟨⟨logs, hlogs⟩, hdframe, htaken⟩ := hplain
  obtain ⟨record, hrecord, hrtype, hrinst, hramount, hrlog, hrframe, hrhosting⟩ :=
    recordRefund_posting db₂ e row.userId instanceId r balanceLogId
  refine ⟨(hframe.trans hdframe).trans hrframe, ⟨log, record, logs, ?_⟩,
    (htaken.of_same hhosting).then_same hrhosting⟩
  exact
    { posting := by simpa using (hlog.trans hlogs.posting).trans hrecord
      user := hsome
      logType := htype
      logUser := hlogUser
      logAmount := hamount
      recordType := hrtype
      recordInstance := hrinst
      recordAmount := hramount
      recordLog := by rw [hrlog, hid]
      logs := hlogs.logs
      records := by simp }

end Paths

end Incudal
