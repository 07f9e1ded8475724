/-
# `AffLedger` — the AFF balance and its log

A commission is credited to the owner of an AFF code, and taken back when the
instance that was paid for never comes up.  The owner converts the AFF balance
into the main balance, at once or, for the requests that an earlier version
left behind, when an administrator approves.  Every amount is rounded to cents
before it is written; the columns would round each of two balances and two logs
on its own otherwise.

A conversion and an approval read first and write later, under a lock of the
user that the reversal of a commission does not take; what is read is therefore
kept in the call.  The result is `aff_ledger`.
-/
import Incudal.Basic
import Incudal.Lib.Machine
import Incudal.Lib.Rounding
import Incudal.Store
import Mathlib.Algebra.Order.BigOperators.Group.List
import Mathlib.Data.Rat.Floor

namespace Incudal.Aff

/-! ## Rows -/

/-- `AffLogType`. -/
inductive LogType
  | newPurchase | renew | refund | convert
deriving DecidableEq, Repr

/-- The remark of a row of `aff_logs`, with the row it names. -/
inductive Remark
  | rebate
  | reversal (logId : ℕ)
  | conversion (withdrawalId : ℕ)
deriving DecidableEq, Repr

structure User where
  affBalance : Cents := 0
  balance : Units := 0
deriving DecidableEq, Repr

structure Code where
  userId : ℕ
  commissionRate : ℚ := 1 / 20
  usedCount : ℕ := 0
  totalEarnings : Cents := 0
deriving DecidableEq, Repr

structure Log where
  id : ℕ
  userId : ℕ
  type : LogType
  amount : Cents
  affCodeId : Option ℕ := none
  instanceId : Option ℕ := none
  originalAmount : Option Cents := none
  balanceBefore : Cents
  balanceAfter : Cents
  remark : Remark
deriving DecidableEq, Repr

inductive WithdrawalStatus
  | pending | approved | rejected
deriving DecidableEq, Repr

structure Withdrawal where
  id : ℕ
  userId : ℕ
  amount : Cents
  status : WithdrawalStatus := .pending
  reviewedBy : Option ℕ := none
  rejectReason : Option String := none
deriving DecidableEq, Repr

/-- A row of `balance_logs` that a conversion writes; its remark names the request. -/
structure GiftLog where
  userId : ℕ
  amount : Units
  balanceBefore : Units
  balanceAfter : Units
  withdrawalId : ℕ
deriving DecidableEq, Repr

/-- What a transaction that converts is for. -/
inductive Request
  | createAffWithdrawal
  | approveAffWithdrawal (withdrawalId adminId : ℕ)
deriving DecidableEq, Repr

/-- A transaction that holds the lock of its user, with the row it has read. -/
structure Call where
  userId : ℕ
  amount : ℚ
  read : User
  request : Request
deriving DecidableEq, Repr

structure World where
  users : ℕ → Option User
  codes : ℕ → Option Code
  logs : List Log := []
  withdrawals : List Withdrawal := []
  giftLogs : List GiftLog := []
  calls : List Call := []
  nextCodeId : ℕ
  nextLogId : ℕ := 1
  nextWithdrawalId : ℕ := 1

/-- What `reverseAffCommissionForInstance` looks for before it takes a commission back. -/
def isReversal (instanceId logId : ℕ) (log : Log) : Bool :=
  log.instanceId == some instanceId && log.type == .refund && log.remark == .reversal logId

/-- What the deletion of a code leaves of a log. -/
def Log.dropCode (codeId : ℕ) (log : Log) : Log :=
  if log.affCodeId = some codeId then { log with affCodeId := none } else log

/-! ## Columns -/

/-- A value in a `Decimal(10, 2)` column. -/
def storeCents (value : ℚ) : Except String Cents :=
  let stored := Rounding.halfAway (value * 100)
  if |stored| < 10 ^ 10 then .ok stored else .error "numeric field overflow"

/-- A value in a `Decimal(20, 8)` column. -/
def storeUnits (value : ℚ) : Except String Units :=
  let stored := Rounding.halfAway (value * 10 ^ 8)
  if |stored| < 10 ^ 20 then .ok stored else .error "numeric field overflow"

/-- `Math.round`. -/
def mathRound (value : ℚ) : ℤ := ⌊value + 1 / 2⌋

namespace World

variable (w : World)

/-- The increment of `affBalance`, and the row of `aff_logs`. -/
def writeAffLog (userId : ℕ) (type : LogType) (amount : ℚ) (balanceBefore : Cents)
    (remark : Remark) (affCodeId instanceId : Option ℕ) (originalAmount : Option ℚ) :
    Except String World :=
  match w.users userId with
  | none => .error "P2025"
  | some user => do
      let affBalance ← storeCents (user.affBalance / 100 + amount)
      let stored ← storeCents amount
      let original ← originalAmount.mapM storeCents
      let balanceAfter ← storeCents (balanceBefore / 100 + amount)
      return { w with
        users := Function.update w.users userId (some { user with affBalance })
        logs := w.logs ++
          [{ id := w.nextLogId
             userId
             type
             amount := stored
             affCodeId
             instanceId
             originalAmount := original
             balanceBefore
             balanceAfter
             remark }]
        nextLogId := w.nextLogId + 1 }

/-- The increment of `balance`, and the row of `balance_logs`. -/
def writeGiftLog (userId : ℕ) (amount : ℚ) (balanceBefore : Units) (withdrawalId : ℕ) :
    Except String World :=
  match w.users userId with
  | none => .error "P2025"
  | some user => do
      let balance ← storeUnits (user.balance / 10 ^ 8 + amount)
      let stored ← storeUnits amount
      let balanceAfter ← storeUnits (balanceBefore / 10 ^ 8 + amount)
      return { w with
        users := Function.update w.users userId (some { user with balance })
        giftLogs := w.giftLogs ++
          [{ userId, amount := stored, balanceBefore, balanceAfter, withdrawalId }] }

/-! ## Commissions -/

/-- `changeAffBalance`, inside a transaction. -/
def changeAffBalance (userId : ℕ) (type : LogType) (amount : ℚ) (remark : Remark)
    (affCodeId instanceId : Option ℕ) (originalAmount : Option ℚ) : Except String World :=
  match w.users userId with
  | none => .error "用户不存在"
  | some user =>
      if amount < 0 ∧ user.affBalance / 100 + amount < 0 then .error "AFF 余额不足"
      else w.writeAffLog userId type amount user.affBalance remark affCodeId instanceId
        originalAmount

/-- `processAffCommission`; `fl` is the double that a product is rounded to. -/
def processAffCommission (fl : ℚ → ℚ) (affCodeId instanceId : ℕ) (originalAmount : ℚ)
    (isNewPurchase : Bool) : Except String World :=
  match w.codes affCodeId with
  | none => .ok w
  | some affCode =>
      let commission : ℚ :=
        mathRound (fl (fl (originalAmount * affCode.commissionRate) * 100)) / 100
      if commission ≤ 0 then .ok w
      else do
        let w ← w.changeAffBalance affCode.userId (if isNewPurchase then .newPurchase else .renew)
          commission .rebate (some affCodeId) (some instanceId) (some originalAmount)
        let totalEarnings ← storeCents (affCode.totalEarnings / 100 + commission)
        return { w with codes := Function.update w.codes affCodeId (some { affCode with
          usedCount := affCode.usedCount + if isNewPurchase then 1 else 0
          totalEarnings }) }

/-- The statistics of a code after a reversal. -/
def reverseEarnings (affCodeId : Option ℕ) (amount : ℚ) : Except String World :=
  match affCodeId with
  | none => .ok w
  | some codeId =>
      match w.codes codeId with
      | none => .ok w
      | some affCode => do
          let totalEarnings ← storeCents (affCode.totalEarnings / 100 - amount)
          return { w with codes := Function.update w.codes codeId (some { affCode with
            usedCount := affCode.usedCount - 1
            totalEarnings }) }

/-- One round of `reverseAffCommissionForInstance`. -/
def reverseCommission (instanceId : ℕ) (commissionLog : Log) : Except String World :=
  if w.logs.any (isReversal instanceId commissionLog.id) then .ok w
  else
    let amount : ℚ := commissionLog.amount / 100
    if amount ≤ 0 then .ok w
    else
      match w.users commissionLog.userId with
      | none => .error s!"AFF 用户 {commissionLog.userId} 不存在"
      | some user => do
          let w ← w.writeAffLog commissionLog.userId .refund (-amount) user.affBalance
            (.reversal commissionLog.id) commissionLog.affCodeId (some instanceId)
            (commissionLog.originalAmount.map fun original => original / 100)
          w.reverseEarnings commissionLog.affCodeId amount

/-- The commissions of an instance that may be taken back; the rows are in the order of `id`. -/
def purchaseCommissions (instanceId : ℕ) : List Log :=
  w.logs.filter fun log =>
    log.instanceId == some instanceId && log.type == .newPurchase && decide (0 < log.amount)

def reverseAffCommissionForInstance (instanceId : ℕ) : Except String World :=
  (w.purchaseCommissions instanceId).foldlM
    (fun w commissionLog => w.reverseCommission instanceId commissionLog) w

/-! ## Conversions -/

/-- The first half of `createAffWithdrawal`: what it reads and checks. -/
def createAffWithdrawal (userId : ℕ) (amount : ℚ) : Except String World :=
  if amount < 1 / 10 then .error "最低转化金额为 0.1 元"
  else
    match w.users userId with
    | none => .error "用户不存在"
    | some user =>
        if user.affBalance / 100 < amount then .error "AFF 余额不足"
        else .ok { w with calls := w.calls ++
          [{ userId, amount, read := user, request := .createAffWithdrawal }] }

/-- The route of a conversion: any amount is sent, and rounded to cents. -/
def convert (fl : ℚ → ℚ) (userId : ℕ) (amount : ℚ) : Except String World :=
  if amount ≤ 0 then .error "请输入有效的转化金额"
  else
    let normalizedAmount : ℚ := mathRound (fl (amount * 100)) / 100
    w.createAffWithdrawal userId normalizedAmount

def findWithdrawal (withdrawalId : ℕ) : Option Withdrawal :=
  w.withdrawals.find? fun withdrawal => withdrawal.id == withdrawalId

/-- The first half of `approveAffWithdrawal`: what it reads and checks. -/
def approveAffWithdrawal (withdrawalId adminId : ℕ) : Except String World :=
  match w.findWithdrawal withdrawalId with
  | none => .error "申请不存在"
  | some withdrawal =>
      if withdrawal.status ≠ .pending then .error "申请已处理"
      else
        match w.users withdrawal.userId with
        | none => .error "申请不存在"
        | some user =>
            let amount : ℚ := withdrawal.amount / 100
            if user.affBalance / 100 < amount then .error "AFF 余额不足"
            else .ok { w with calls := w.calls ++
              [{ userId := withdrawal.userId
                 amount
                 read := user
                 request := .approveAffWithdrawal withdrawalId adminId }] }

/-- Both balances and both logs of a conversion. -/
def moveToBalance (call : Call) (withdrawalId : ℕ) : Except String World := do
  let w ← w.writeAffLog call.userId .convert (-call.amount) call.read.affBalance
    (.conversion withdrawalId) none none none
  w.writeGiftLog call.userId call.amount call.read.balance withdrawalId

/-- A pending request is settled. -/
def settle (withdrawalId : ℕ) (f : Withdrawal → Withdrawal) : Except String World :=
  if w.withdrawals.any fun x => x.id == withdrawalId && x.status == .pending then
    .ok { w with withdrawals := w.withdrawals.map fun x =>
      if x.id = withdrawalId ∧ x.status = .pending then f x else x }
  else .error "申请已处理"

/-- The second half of a conversion or an approval: its writes. -/
def write (call : Call) : Except String World :=
  match call.request with
  | .createAffWithdrawal => do
      let amount ← storeCents call.amount
      let created : World := { w with
        withdrawals := w.withdrawals ++
          [{ id := w.nextWithdrawalId, userId := call.userId, amount, status := .approved }]
        nextWithdrawalId := w.nextWithdrawalId + 1 }
      created.moveToBalance call w.nextWithdrawalId
  | .approveAffWithdrawal withdrawalId adminId => do
      let w ← w.moveToBalance call withdrawalId
      w.settle withdrawalId fun x => { x with status := .approved, reviewedBy := some adminId }

def rejectAffWithdrawal (withdrawalId adminId : ℕ) (reason : String) : Except String World :=
  w.settle withdrawalId fun x =>
    { x with status := .rejected, rejectReason := some reason, reviewedBy := some adminId }

/-! ## Codes and users -/

def createAffCode (userId : ℕ) : World :=
  { w with
    codes := Function.update w.codes w.nextCodeId (some { userId })
    nextCodeId := w.nextCodeId + 1 }

/-- `deleteAffCode`; the logs lose the code. -/
def deleteAffCode (userId codeId instanceBindingCount : ℕ) : Except String World :=
  match w.codes codeId with
  | none => .error "优惠码不存在"
  | some affCode =>
      if affCode.userId ≠ userId then .error "无权删除此优惠码"
      else if 0 < affCode.usedCount then .error "该优惠码已被使用，无法删除"
      else if 0 < instanceBindingCount then .error "该优惠码已绑定订阅，无法删除"
      else .ok { w with
        codes := Function.update w.codes codeId none
        logs := w.logs.map (·.dropCode codeId) }

/-- `deleteUser`: every row of the user goes with it. -/
def deleteUser (userId : ℕ) : World :=
  { w with
    users := Function.update w.users userId none
    codes := fun codeId => (w.codes codeId).filter (·.userId != userId)
    logs := w.logs.filter (·.userId != userId)
    withdrawals := w.withdrawals.filter (·.userId != userId)
    giftLogs := w.giftLogs.filter (·.userId != userId) }

/-- The lock of a user is free. -/
def unlocked (userId : ℕ) : Bool := w.calls.all (·.userId != userId)

end World

/-! ## Steps -/

inductive Event
  | createAffCode (userId : ℕ)
  | deleteAffCode (userId codeId instanceBindingCount : ℕ)
  | processAffCommission (affCodeId instanceId : ℕ) (originalAmount : ℚ) (isNewPurchase : Bool)
  /-- inside the transaction that marks the instance as failed -/
  | reverseAffCommissionForInstance (instanceId : ℕ)
  | convert (userId : ℕ) (amount : ℚ)
  | approveAffWithdrawal (withdrawalId adminId : ℕ)
  /-- a conversion or an approval writes, or it is rolled back -/
  | commit (k : ℕ)
  | crash (k : ℕ)
  | rejectAffWithdrawal (withdrawalId adminId : ℕ) (reason : String)
  /-- whatever else moves the main balance -/
  | setBalance (userId : ℕ) (balance : Units)
  | deleteUser (userId : ℕ)
deriving DecidableEq, Repr

def World.endCall (w : World) (k : ℕ) : World := { w with calls := w.calls.eraseIdx k }

def affStep (fl : ℚ → ℚ) (w : World) : Event → Option World
  | .createAffCode userId => some (w.createAffCode userId)
  | .deleteAffCode userId codeId instanceBindingCount =>
      (w.deleteAffCode userId codeId instanceBindingCount).toOption
  | .processAffCommission affCodeId instanceId originalAmount isNewPurchase =>
      if (w.codes affCodeId).all fun affCode => w.unlocked affCode.userId then
        (w.processAffCommission fl affCodeId instanceId originalAmount isNewPurchase).toOption
      else none
  | .reverseAffCommissionForInstance instanceId =>
      (w.reverseAffCommissionForInstance instanceId).toOption
  | .convert userId amount =>
      if w.unlocked userId then (w.convert fl userId amount).toOption else none
  | .approveAffWithdrawal withdrawalId adminId =>
      if (w.findWithdrawal withdrawalId).all fun x => w.unlocked x.userId then
        (w.approveAffWithdrawal withdrawalId adminId).toOption
      else none
  | .commit k =>
      match w.calls[k]? with
      | none => none
      | some call =>
          match w.write call with
          | .error _ => some (w.endCall k)
          | .ok w' => some (w'.endCall k)
  | .crash k => if k < w.calls.length then some (w.endCall k) else none
  | .rejectAffWithdrawal withdrawalId adminId reason =>
      (w.rejectAffWithdrawal withdrawalId adminId reason).toOption
  | .setBalance userId balance =>
      match w.users userId with
      | none => none
      | some user =>
          some { w with users := Function.update w.users userId (some { user with balance }) }
  | .deleteUser userId => some (w.deleteUser userId)

/-! ## The property -/

/-- The amounts of the logs that `p` picks, in all. -/
def World.sumOf (w : World) (p : Log → Bool) : Cents := ((w.logs.filter p).map (·.amount)).sum

/-- The commissions of new purchases that a user had of an instance, and what was taken back. -/
def isPurchaseOf (userId instanceId : ℕ) (log : Log) : Bool :=
  log.userId == userId && log.instanceId == some instanceId &&
    (log.type == .newPurchase || log.type == .refund)

/-- A request is settled with one row in each log, of its user and its amount, or with none. -/
def World.SettledOnce (w : World) (x : Withdrawal) : Prop :=
  if x.status = .approved then
    ∃ log giftLog, w.logs.filter (·.remark == .conversion x.id) = [log] ∧
      w.giftLogs.filter (·.withdrawalId == x.id) = [giftLog] ∧
      (log.userId = x.userId ∧ log.amount = -x.amount) ∧
      giftLog.userId = x.userId ∧ giftLog.amount = toUnits x.amount
  else
    w.logs.filter (·.remark == .conversion x.id) = [] ∧
      w.giftLogs.filter (·.withdrawalId == x.id) = []

/-- What holds of the balances and the logs in every state. -/
structure Sound (w : World) : Prop where
  ledger : ∀ userId user, w.users userId = some user →
    user.affBalance = w.sumOf (·.userId == userId)
  reversedOnce : ∀ instanceId logId, (w.logs.filter (isReversal instanceId logId)).length ≤ 1
  reversesCredit : ∀ refund ∈ w.logs, refund.type = .refund →
    ∃ commission ∈ w.logs, commission.type = .newPurchase ∧
      commission.instanceId = refund.instanceId ∧ commission.userId = refund.userId ∧
      refund.remark = .reversal commission.id ∧ refund.amount = -commission.amount
  notBelowCredited : ∀ userId instanceId, 0 ≤ w.sumOf (isPurchaseOf userId instanceId)
  settledOnce : ∀ x ∈ w.withdrawals, w.SettledOnce x

/-- What one step may do: a conversion moves one amount from one balance to the other, and a
request that is settled stays as it is. -/
structure StepSound (w w' : World) (event : Event) : Prop where
  moves : ∀ k call, event = .commit k → w.calls[k]? = some call →
    (w'.users = w.users ∧ w'.logs = w.logs ∧ w'.withdrawals = w.withdrawals) ∨
      ∃ user, ∃ amount : Cents, w.users call.userId = some user ∧ call.amount = amount / 100 ∧
        w'.users = Function.update w.users call.userId (some
          { affBalance := user.affBalance - amount, balance := user.balance + toUnits amount })
  settled : ∀ x ∈ w.withdrawals, x.status ≠ .pending →
    ∀ x' ∈ w'.withdrawals, x'.id = x.id → x' = x

/-- Before the first step: no logs yet, and requests that wait for an administrator. -/
structure World.Starts (w : World) : Prop where
  users : ∀ userId user, w.users userId = some user → user.affBalance = 0
  logs : w.logs = []
  giftLogs : w.giftLogs = []
  calls : w.calls = []
  withdrawals : ∀ x ∈ w.withdrawals, x.id < w.nextWithdrawalId ∧ x.status = .pending
  withdrawalIds : (w.withdrawals.map (·.id)).Nodup

/-! ## Columns keep cents -/

theorem storeCents_cents {c stored : Cents} (h : storeCents (c / 100) = .ok stored) :
    stored = c := by
  unfold storeCents at h
  rw [show (c : ℚ) / 100 * 100 = c by ring, Rounding.halfAway_intCast] at h
  simp only at h
  split_ifs at h
  exact (Except.ok.inj h).symm

theorem storeUnits_units {u stored : Units} (h : storeUnits (u / 10 ^ 8) = .ok stored) :
    stored = u := by
  unfold storeUnits at h
  rw [show (u : ℚ) / 10 ^ 8 * 10 ^ 8 = u by ring, Rounding.halfAway_intCast] at h
  simp only at h
  split_ifs at h
  exact (Except.ok.inj h).symm

/-! ## The invariant -/

/-- What a call has read: an amount of whole cents, and the request it approves. -/
def Call.Knows (call : Call) (w : World) : Prop :=
  ∃ c : Cents, call.amount = c / 100 ∧
    match call.request with
    | .createAffWithdrawal => True
    | .approveAffWithdrawal withdrawalId _ => withdrawalId < w.nextWithdrawalId ∧
        ∀ x ∈ w.withdrawals, x.id = withdrawalId → x.userId = call.userId ∧ x.amount = c

structure Inv (w : World) : Prop where
  ledger : ∀ userId user, w.users userId = some user →
    user.affBalance = w.sumOf (·.userId == userId)
  credits : ∀ log ∈ w.logs, log.type = .newPurchase → 0 ≤ log.amount
  reversedOnce : ∀ instanceId logId, (w.logs.filter (isReversal instanceId logId)).length ≤ 1
  reversesCredit : ∀ refund ∈ w.logs, refund.type = .refund →
    ∃ commission ∈ w.logs, commission.type = .newPurchase ∧
      commission.instanceId = refund.instanceId ∧ commission.userId = refund.userId ∧
      refund.remark = .reversal commission.id ∧ refund.amount = -commission.amount
  logIds : ∀ log ∈ w.logs, ∀ id, log.remark = .conversion id → id < w.nextWithdrawalId
  giftIds : ∀ giftLog ∈ w.giftLogs, giftLog.withdrawalId < w.nextWithdrawalId
  withdrawalIds : (w.withdrawals.map (·.id)).Nodup
  withdrawals : ∀ x ∈ w.withdrawals, x.id < w.nextWithdrawalId
  settledOnce : ∀ x ∈ w.withdrawals, w.SettledOnce x
  calls : ∀ call ∈ w.calls, call.Knows w

/-- What becomes of the requests: they stay, or one that was pending is replaced, or one is new. -/
def Carries (w w' : World) : Prop :=
  ∀ x' ∈ w'.withdrawals, x' ∈ w.withdrawals ∨ w.nextWithdrawalId ≤ x'.id ∨
    ∃ x ∈ w.withdrawals, x.id = x'.id ∧ x.status = .pending

theorem Inv.settled {w w' : World} (h : Inv w) (hcarries : Carries w w') :
    ∀ x ∈ w.withdrawals, x.status ≠ .pending → ∀ x' ∈ w'.withdrawals, x'.id = x.id → x' = x := by
  intro x hx hstatus x' hx' hid
  rcases hcarries x' hx' with hold | hnew | ⟨y, hy, hsame, hpending⟩
  · exact List.inj_on_of_nodup_map h.withdrawalIds hold hx hid
  · exact absurd (h.withdrawals x hx) (Nat.not_lt.mpr (hid ▸ hnew))
  · have hxy : y = x := List.inj_on_of_nodup_map h.withdrawalIds hy hx (hsame.trans hid)
    exact absurd (hxy ▸ hpending) hstatus

/-- Of the entries and their reversals, no two for one entry, the sum is not negative. -/
theorem sum_with_reversals {credits reversals : List Log} (hcredits : ∀ c ∈ credits, 0 ≤ c.amount)
    (honce : (reversals.map (·.remark)).Nodup)
    (hreverses : ∀ r ∈ reversals, ∃ c ∈ credits,
      r.remark = .reversal c.id ∧ r.amount = -c.amount) :
    0 ≤ (credits.map (·.amount)).sum + (reversals.map (·.amount)).sum := by
  induction reversals generalizing credits with
  | nil =>
    have hsum : 0 ≤ (credits.map (·.amount)).sum := by
      refine List.sum_nonneg fun amount hamount => ?_
      obtain ⟨c, hc, rfl⟩ := List.mem_map.mp hamount
      exact hcredits c hc
    simpa using hsum
  | cons r reversals ih =>
    obtain ⟨c, hc, hremark, hamount⟩ := hreverses r List.mem_cons_self
    rw [List.map_cons, List.nodup_cons] at honce
    have hrest : ∀ r' ∈ reversals, ∃ c' ∈ credits.erase c,
        r'.remark = .reversal c'.id ∧ r'.amount = -c'.amount := by
      intro r' hr'
      obtain ⟨c', hc', hremark', hamount'⟩ := hreverses r' (List.mem_cons_of_mem _ hr')
      refine ⟨c', ?_, hremark', hamount'⟩
      -- another reversal of `c` would have the remark of `r`
      rw [List.mem_erase_of_ne fun hsame => honce.1 ?_]
      · exact hc'
      · rw [hremark, ← hsame, ← hremark']
        exact List.mem_map_of_mem hr'
    have hsum := ih (fun c' hc' => hcredits c' (List.mem_of_mem_erase hc')) honce.2 hrest
    have herase : (credits.map (·.amount)).sum =
        c.amount + ((credits.erase c).map (·.amount)).sum :=
      ((List.perm_cons_erase hc).map _).sum_eq
    rw [herase, List.map_cons, List.sum_cons, hamount]
    linarith

/-- Two picks that never meet are summed apart. -/
theorem sum_filter_or {p q : Log → Bool} (hpq : ∀ log, p log = true → q log = false)
    (logs : List Log) : ((logs.filter fun log => p log || q log).map (·.amount)).sum =
      ((logs.filter p).map (·.amount)).sum + ((logs.filter q).map (·.amount)).sum := by
  induction logs with
  | nil => rfl
  | cons log logs ih =>
    cases hp : p log with
    | true => simp [hp, hpq log hp, ih, add_assoc]
    | false =>
      cases hq : q log with
      | true => simp [hp, hq, ih, add_left_comm]
      | false => simp [hp, hq, ih]

theorem Inv.notBelowCredited {w : World} (h : Inv w) (userId instanceId : ℕ) :
    0 ≤ w.sumOf (isPurchaseOf userId instanceId) := by
  let here : Log → Bool := fun log => log.userId == userId && log.instanceId == some instanceId
  let credits := w.logs.filter fun log => here log && log.type == .newPurchase
  let reversals := w.logs.filter fun log => here log && log.type == .refund
  have hpick : isPurchaseOf userId instanceId = fun log =>
      (here log && log.type == .newPurchase) || (here log && log.type == .refund) :=
    funext fun log => Bool.and_or_distrib_left _ _ _
  have hsplit : w.sumOf (isPurchaseOf userId instanceId) =
      (credits.map (·.amount)).sum + (reversals.map (·.amount)).sum := by
    rw [World.sumOf, hpick]
    refine sum_filter_or (fun log hcredit => ?_) w.logs
    rw [Bool.and_eq_true, beq_iff_eq] at hcredit
    rw [hcredit.2]
    exact Bool.and_false _
  rw [hsplit]
  refine sum_with_reversals (fun c hc => ?_) ?_ fun r hr => ?_
  · obtain ⟨hmem, hp⟩ := List.mem_filter.mp hc
    rw [Bool.and_eq_true, beq_iff_eq] at hp
    exact h.credits c hmem hp.2
  · refine List.nodup_iff_count_le_one.mpr fun remark => ?_
    by_cases hremark : remark ∈ reversals.map (·.remark)
    · obtain ⟨r, hr, rfl⟩ := List.mem_map.mp hremark
      obtain ⟨hmem, hp⟩ := List.mem_filter.mp hr
      simp only [here, Bool.and_eq_true, beq_iff_eq] at hp
      obtain ⟨c, -, -, -, -, hreversal, -⟩ := h.reversesCredit r hmem hp.2
      have honce := h.reversedOnce instanceId c.id
      rw [← List.countP_eq_length_filter] at honce
      rw [List.count_eq_countP, List.countP_map, List.countP_filter]
      refine (List.countP_mono_left fun r' _ hr' => ?_).trans honce
      simp only [here, Function.comp, Bool.and_eq_true, beq_iff_eq, hreversal] at hr'
      obtain ⟨hsame, ⟨-, hinstance⟩, hrefund⟩ := hr'
      simp [isReversal, hinstance, hrefund, hsame]
    · rw [List.count_eq_zero_of_not_mem hremark]
      exact Nat.zero_le 1
  · obtain ⟨hmem, hp⟩ := List.mem_filter.mp hr
    simp only [here, Bool.and_eq_true, beq_iff_eq] at hp
    obtain ⟨c, hc, htype, hinstance, huser, hremark, hamount⟩ := h.reversesCredit r hmem hp.2
    refine ⟨c, List.mem_filter.mpr ⟨hc, ?_⟩, hremark, hamount⟩
    simp only [here, Bool.and_eq_true, beq_iff_eq]
    exact ⟨⟨huser.trans hp.1.1, hinstance.trans hp.1.2⟩, htype⟩

/-- A row is added to `aff_logs`, with the balance it is about. -/
structure Posts (w w' : World) (log : Log) : Prop where
  users : ∃ user, w.users log.userId = some user ∧ w'.users = Function.update w.users log.userId
    (some { user with affBalance := user.affBalance + log.amount })
  logs : w'.logs = w.logs ++ [log]
  withdrawals : w'.withdrawals = w.withdrawals
  giftLogs : w'.giftLogs = w.giftLogs
  calls : w'.calls = w.calls
  nextWithdrawalId : w'.nextWithdrawalId = w.nextWithdrawalId

section Posts

variable {w w' : World} {userId instanceId : ℕ} {type : LogType} {c : Cents} {amount : ℚ}
  {balanceBefore : Cents} {remark : Remark} {affCodeId instance? : Option ℕ}
  {originalAmount : Option ℚ}

/-- An amount of whole cents is the same in the balance and in the log. -/
theorem writeAffLog_spec (hamount : amount = c / 100)
    (h : w.writeAffLog userId type amount balanceBefore remark affCodeId instance?
      originalAmount = .ok w') :
    ∃ log, Posts w w' log ∧ w'.codes = w.codes ∧ log.userId = userId ∧ log.type = type ∧
      log.amount = c ∧ log.instanceId = instance? ∧ log.remark = remark := by
  unfold World.writeAffLog at h
  cases huser : w.users userId with
  | none => rw [huser] at h; cases h
  | some user =>
    simp only [huser, hamount] at h
    obtain ⟨affBalance, haff, h⟩ := exists_of_bind_ok h
    obtain ⟨stored, hstored, h⟩ := exists_of_bind_ok h
    obtain ⟨original, -, h⟩ := exists_of_bind_ok h
    obtain ⟨balanceAfter, -, h⟩ := exists_of_bind_ok h
    have hsum : (user.affBalance : ℚ) / 100 + c / 100 = ((user.affBalance + c : ℤ) : ℚ) / 100 := by
      push_cast
      ring
    rw [hsum] at haff
    obtain rfl := storeCents_cents haff
    obtain rfl := storeCents_cents hstored
    obtain rfl := Except.ok.inj h
    exact ⟨_, ⟨⟨user, huser, rfl⟩, rfl, rfl, rfl, rfl, rfl⟩, rfl, rfl, rfl, rfl, rfl, rfl⟩

theorem changeAffBalance_spec (hamount : amount = c / 100)
    (h : w.changeAffBalance userId type amount remark affCodeId instance? originalAmount =
      .ok w') :
    ∃ log, Posts w w' log ∧ w'.codes = w.codes ∧ log.userId = userId ∧ log.type = type ∧
      log.amount = c ∧ log.instanceId = instance? ∧ log.remark = remark := by
  unfold World.changeAffBalance at h
  cases huser : w.users userId with
  | none => rw [huser] at h; cases h
  | some user =>
    simp only [huser] at h
    split_ifs at h
    exact writeAffLog_spec hamount h

/-- What a new log may be: a commission is a credit, and a reversal takes back what was not taken
back before. -/
structure Allowed (w : World) (log : Log) : Prop where
  credit : log.type = .newPurchase → 0 ≤ log.amount
  reversal : log.type = .refund → ∃ commission ∈ w.logs, commission.type = .newPurchase ∧
    commission.instanceId = log.instanceId ∧ commission.userId = log.userId ∧
    log.remark = .reversal commission.id ∧ log.amount = -commission.amount ∧
    ∀ id, log.instanceId = some id → w.logs.any (isReversal id commission.id) = false

theorem sumOf_append {log : Log} {p : Log → Bool} (hlogs : w'.logs = w.logs ++ [log]) :
    w'.sumOf p = w.sumOf p + if p log then log.amount else 0 := by
  unfold World.sumOf
  rw [hlogs, List.filter_append, List.map_append, List.sum_append]
  cases hp : p log with
  | true => simp [hp]
  | false => simp [hp]

/-- One balance and its sum move together. -/
theorem ledger_append {log : Log} {users : ℕ → Option User}
    (h : ∀ userId user, users userId = some user → user.affBalance = w.sumOf (·.userId == userId))
    (hlogs : w'.logs = w.logs ++ [log]) {user user' : User} (huser : users log.userId = some user)
    (hamount : user'.affBalance = user.affBalance + log.amount) (userId : ℕ) (after : User)
    (hafter : Function.update users log.userId (some user') userId = some after) :
    after.affBalance = w'.sumOf (·.userId == userId) := by
  rw [sumOf_append hlogs]
  by_cases hsame : userId = log.userId
  · rw [hsame, Function.update_self] at hafter
    obtain rfl := Option.some.inj hafter
    rw [hamount, h _ _ huser, hsame, beq_self_eq_true, if_pos rfl]
  · rw [Function.update_of_ne hsame] at hafter
    rw [h _ _ hafter, beq_false_of_ne fun heq => hsame heq.symm]
    simp

theorem Inv.reversals_append (h : Inv w) {log : Log} (hlog : Allowed w log)
    (hlogs : w'.logs = w.logs ++ [log]) :
    (∀ log ∈ w'.logs, log.type = .newPurchase → 0 ≤ log.amount) ∧
    (∀ instanceId logId, (w'.logs.filter (isReversal instanceId logId)).length ≤ 1) ∧
    ∀ refund ∈ w'.logs, refund.type = .refund →
      ∃ commission ∈ w'.logs, commission.type = .newPurchase ∧
        commission.instanceId = refund.instanceId ∧ commission.userId = refund.userId ∧
        refund.remark = .reversal commission.id ∧ refund.amount = -commission.amount := by
  rw [hlogs]
  refine ⟨fun l hl => ?_, fun instanceId logId => ?_, fun refund hrefund htype => ?_⟩
  · rcases List.mem_append.mp hl with hl | hl
    · exact h.credits l hl
    · obtain rfl := List.mem_singleton.mp hl
      exact hlog.credit
  · rw [List.filter_append, List.length_append]
    by_cases hnew : isReversal instanceId logId log = true
    · have hparts := hnew
      simp only [isReversal, Bool.and_eq_true, beq_iff_eq] at hparts
      obtain ⟨⟨hinstance, htype⟩, hremark⟩ := hparts
      obtain ⟨c, -, -, -, -, hreversal, -, hfresh⟩ := hlog.reversal htype
      have hid : c.id = logId := Remark.reversal.inj (hreversal.symm.trans hremark)
      have hnone : w.logs.filter (isReversal instanceId logId) = [] := by
        refine List.filter_eq_nil_iff.mpr fun l hl => ?_
        exact List.any_eq_false.mp (hid ▸ hfresh instanceId hinstance) l hl
      rw [hnone]
      simp [hnew]
    · simpa [hnew] using h.reversedOnce instanceId logId
  · rcases List.mem_append.mp hrefund with hold | hnew
    · obtain ⟨c, hc, hrest⟩ := h.reversesCredit refund hold htype
      exact ⟨c, List.mem_append_left _ hc, hrest⟩
    · obtain rfl := List.mem_singleton.mp hnew
      obtain ⟨c, hc, hkind, hinstance, huser, hremark, hamount, -⟩ := hlog.reversal htype
      exact ⟨c, List.mem_append_left _ hc, hkind, hinstance, huser, hremark, hamount⟩

theorem Call.Knows.keep {call : Call} (h : call.Knows w)
    (hwithdrawals : w'.withdrawals = w.withdrawals)
    (hnext : w'.nextWithdrawalId = w.nextWithdrawalId) : call.Knows w' := by
  unfold Call.Knows
  rw [hwithdrawals, hnext]
  exact h

/-- A commission, or the reversal of one, keeps the invariant. -/
theorem Inv.posts (h : Inv w) {log : Log} (hlog : Allowed w log)
    (hother : ∀ id, log.remark ≠ .conversion id) (hposts : Posts w w' log) : Inv w' := by
  obtain ⟨⟨user, huser, husers⟩, hlogs, hwithdrawals, hgiftLogs, hcalls, hnext⟩ := hposts
  obtain ⟨hcredits, honce, hreverses⟩ := h.reversals_append hlog hlogs
  refine ⟨?_, hcredits, honce, hreverses, fun l hl id hremark => ?_, ?_, ?_, ?_, ?_, ?_⟩
  · rw [husers]
    exact ledger_append h.ledger hlogs huser rfl
  · rw [hlogs] at hl
    rw [hnext]
    rcases List.mem_append.mp hl with hl | hl
    · exact h.logIds l hl id hremark
    · obtain rfl := List.mem_singleton.mp hl
      exact absurd hremark (hother id)
  · rw [hgiftLogs, hnext]
    exact h.giftIds
  · rw [hwithdrawals]
    exact h.withdrawalIds
  · rw [hwithdrawals, hnext]
    exact h.withdrawals
  · intro x hx
    have hnone : [log].filter (·.remark == .conversion x.id) = [] := by
      have hneq : (log.remark == .conversion x.id) = false := beq_false_of_ne (hother x.id)
      simp [hneq]
    unfold World.SettledOnce
    rw [hlogs, hgiftLogs, List.filter_append, hnone, List.append_nil]
    exact h.settledOnce x (hwithdrawals ▸ hx)
  · rw [hcalls]
    exact fun call hcall => (h.calls call hcall).keep hwithdrawals hnext

theorem processAffCommission_spec {fl : ℚ → ℚ} {codeId : ℕ} {price : ℚ} {isNewPurchase : Bool}
    (h : w.processAffCommission fl codeId instanceId price isNewPurchase = .ok w') :
    w' = w ∨ ∃ log, Posts w w' log ∧ Allowed w log ∧ ∀ id, log.remark ≠ .conversion id := by
  unfold World.processAffCommission at h
  cases hcode : w.codes codeId with
  | none =>
    rw [hcode] at h
    exact .inl (Except.ok.inj h).symm
  | some affCode =>
    simp only [hcode] at h
    generalize mathRound (fl (fl (price * affCode.commissionRate) * 100)) = c at h
    by_cases hpositive : (c : ℚ) / 100 ≤ 0
    · rw [if_pos hpositive] at h
      exact .inl (Except.ok.inj h).symm
    · rw [if_neg hpositive] at h
      obtain ⟨w₁, hchange, h⟩ := exists_of_bind_ok h
      obtain ⟨totalEarnings, -, h⟩ := exists_of_bind_ok h
      obtain rfl := Except.ok.inj h
      obtain ⟨log, hposts, -, -, htype, hamount, -, hremark⟩ := changeAffBalance_spec rfl hchange
      refine .inr ⟨log, ⟨hposts.users, hposts.logs, hposts.withdrawals, hposts.giftLogs,
        hposts.calls, hposts.nextWithdrawalId⟩, ⟨fun _ => ?_, fun hrefund => ?_⟩, fun id => ?_⟩
      · have hpos : (0 : ℚ) < c := by linarith
        rw [hamount]
        exact_mod_cast hpos.le
      · rw [htype] at hrefund
        cases isNewPurchase <;> cases hrefund
      · rw [hremark]
        exact Remark.noConfusion

theorem reverseEarnings_spec {codeId : Option ℕ} (h : w.reverseEarnings codeId amount = .ok w') :
    w'.users = w.users ∧ w'.logs = w.logs ∧ w'.withdrawals = w.withdrawals ∧
      w'.giftLogs = w.giftLogs ∧ w'.calls = w.calls ∧
      w'.nextWithdrawalId = w.nextWithdrawalId := by
  unfold World.reverseEarnings at h
  cases codeId with
  | none =>
    obtain rfl := Except.ok.inj h
    exact ⟨rfl, rfl, rfl, rfl, rfl, rfl⟩
  | some codeId =>
    cases hcode : w.codes codeId with
    | none =>
      simp only [hcode] at h
      obtain rfl := Except.ok.inj h
      exact ⟨rfl, rfl, rfl, rfl, rfl, rfl⟩
    | some affCode =>
      simp only [hcode] at h
      obtain ⟨totalEarnings, -, h⟩ := exists_of_bind_ok h
      obtain rfl := Except.ok.inj h
      exact ⟨rfl, rfl, rfl, rfl, rfl, rfl⟩

theorem reverseCommission_spec {commission : Log} (hmem : commission ∈ w.logs)
    (hinstance : commission.instanceId = some instanceId) (htype : commission.type = .newPurchase)
    (h : w.reverseCommission instanceId commission = .ok w') :
    w' = w ∨ ∃ log, Posts w w' log ∧ Allowed w log ∧ ∀ id, log.remark ≠ .conversion id := by
  unfold World.reverseCommission at h
  simp only at h
  split_ifs at h with hreversed hpositive
  · exact .inl (Except.ok.inj h).symm
  · exact .inl (Except.ok.inj h).symm
  · cases huser : w.users commission.userId with
    | none => rw [huser] at h; cases h
    | some user =>
      simp only [huser] at h
      obtain ⟨w₁, hwrite, h⟩ := exists_of_bind_ok h
      obtain ⟨husers, hlogs, hwithdrawals, hgiftLogs, hcalls, hnext⟩ := reverseEarnings_spec h
      have hneg : -((commission.amount : ℚ) / 100) = ((-commission.amount : ℤ) : ℚ) / 100 := by
        push_cast
        ring
      obtain ⟨log, hposts, -, hlogUser, hlogType, hamount, hlogInstance, hremark⟩ :=
        writeAffLog_spec hneg hwrite
      refine .inr ⟨log, ⟨husers ▸ hposts.users, hlogs ▸ hposts.logs,
        hwithdrawals.trans hposts.withdrawals, hgiftLogs.trans hposts.giftLogs,
        hcalls.trans hposts.calls, hnext.trans hposts.nextWithdrawalId⟩,
        ⟨fun hcredit => ?_, fun _ => ⟨commission, hmem, htype, hinstance.trans hlogInstance.symm,
          hlogUser.symm, hremark, hamount, fun id hid => ?_⟩⟩, fun id => ?_⟩
      · rw [hlogType] at hcredit
        cases hcredit
      · obtain rfl := Option.some.inj (hlogInstance.symm.trans hid)
        exact Bool.eq_false_iff.mpr hreversed
      · rw [hremark]
        exact Remark.noConfusion

end Posts

/-- The reversals of an instance, one after the other: the commissions stay in the log. -/
theorem Inv.reverses {w w' : World} {instanceId : ℕ} {commissions : List Log} (h : Inv w)
    (hcommissions : ∀ c ∈ commissions,
      c ∈ w.logs ∧ c.instanceId = some instanceId ∧ c.type = .newPurchase)
    (hfold : commissions.foldlM (fun w c => w.reverseCommission instanceId c) w = .ok w') :
    Inv w' ∧ w'.withdrawals = w.withdrawals := by
  induction commissions generalizing w with
  | nil =>
    obtain rfl := Except.ok.inj hfold
    exact ⟨h, rfl⟩
  | cons c commissions ih =>
    rw [List.foldlM_cons] at hfold
    obtain ⟨w₁, hfirst, hrest⟩ := exists_of_bind_ok hfold
    obtain ⟨hc, hinstance, htype⟩ := hcommissions c List.mem_cons_self
    have htail := fun c' hc' => hcommissions c' (List.mem_cons_of_mem c hc')
    rcases reverseCommission_spec hc hinstance htype hfirst with rfl | ⟨log, hposts, hlog, hother⟩
    · exact ih h htail hrest
    · have hkept : ∀ c' ∈ commissions,
          c' ∈ w₁.logs ∧ c'.instanceId = some instanceId ∧ c'.type = .newPurchase := by
        intro c' hc'
        rw [hposts.logs]
        exact ⟨List.mem_append_left _ (htail c' hc').1, (htail c' hc').2⟩
      obtain ⟨hinv, hwithdrawals⟩ := ih (h.posts hlog hother hposts) hkept hrest
      exact ⟨hinv, hwithdrawals.trans hposts.withdrawals⟩

/-! ## Conversions move one amount -/

/-- Both balances of a user and both logs, for one request. -/
structure Moves (w w' : World) (userId : ℕ) (c : Cents) (withdrawalId : ℕ) : Prop where
  user : ∃ user, w.users userId = some user ∧ w'.users = Function.update w.users userId
    (some { affBalance := user.affBalance - c, balance := user.balance + toUnits c })
  log : ∃ log, w'.logs = w.logs ++ [log] ∧ log.type = .convert ∧
    log.remark = .conversion withdrawalId ∧ log.userId = userId ∧ log.amount = -c
  giftLog : ∃ giftLog, w'.giftLogs = w.giftLogs ++ [giftLog] ∧
    giftLog.withdrawalId = withdrawalId ∧ giftLog.userId = userId ∧ giftLog.amount = toUnits c
  calls : w'.calls = w.calls

section Conversions

variable {w w' : World} {call : Call} {c : Cents} {withdrawalId : ℕ}

theorem moveToBalance_spec (hamount : call.amount = c / 100)
    (h : w.moveToBalance call withdrawalId = .ok w') :
    Moves w w' call.userId c withdrawalId ∧ w'.withdrawals = w.withdrawals ∧
      w'.nextWithdrawalId = w.nextWithdrawalId := by
  unfold World.moveToBalance at h
  obtain ⟨w₁, hwrite, h⟩ := exists_of_bind_ok h
  have hneg : -call.amount = ((-c : ℤ) : ℚ) / 100 := by
    rw [hamount]
    push_cast
    ring
  obtain ⟨log, hposts, -, hlogUser, hlogType, hlogAmount, -, hremark⟩ := writeAffLog_spec hneg hwrite
  obtain ⟨⟨user, huser, husers⟩, hlogs, hwithdrawals, hgiftLogs, hcalls, hnext⟩ := hposts
  rw [hlogUser] at huser husers
  have hafter : w₁.users call.userId =
      some { user with affBalance := user.affBalance + log.amount } := by
    rw [husers, Function.update_self]
  unfold World.writeGiftLog at h
  simp only [hafter] at h
  obtain ⟨balance, hbalance, h⟩ := exists_of_bind_ok h
  obtain ⟨stored, hstored, h⟩ := exists_of_bind_ok h
  obtain ⟨balanceAfter, -, h⟩ := exists_of_bind_ok h
  obtain rfl := Except.ok.inj h
  have hunits : (call.amount : ℚ) = ((toUnits c : ℤ) : ℚ) / 10 ^ 8 := by
    rw [hamount, toUnits]
    push_cast
    ring
  have hsum : (user.balance : ℚ) / 10 ^ 8 + call.amount =
      ((user.balance + toUnits c : ℤ) : ℚ) / 10 ^ 8 := by
    rw [hunits]
    push_cast
    ring
  rw [hsum] at hbalance
  rw [hunits] at hstored
  obtain rfl := storeUnits_units hbalance
  obtain rfl := storeUnits_units hstored
  refine ⟨⟨⟨user, huser, ?_⟩, ⟨log, hlogs, hlogType, hremark, hlogUser, hlogAmount⟩,
    ⟨_, congrArg (· ++ _) hgiftLogs, rfl, rfl, rfl⟩, hcalls⟩, hwithdrawals, hnext⟩
  show Function.update w₁.users call.userId _ = _
  rw [husers, Function.update_idem, hlogAmount]
  rfl

/-- A conversion keeps the invariant, with the request it settles. -/
theorem Inv.converts (h : Inv w) {userId : ℕ} (hmoves : Moves w w' userId c withdrawalId)
    (hnext : w.nextWithdrawalId ≤ w'.nextWithdrawalId) (hid : withdrawalId < w'.nextWithdrawalId)
    (hids : (w'.withdrawals.map (·.id)).Nodup)
    (hnone : w.logs.filter (·.remark == .conversion withdrawalId) = [] ∧
      w.giftLogs.filter (·.withdrawalId == withdrawalId) = [])
    (hwithdrawals : ∀ x ∈ w'.withdrawals, (x ∈ w.withdrawals ∧ x.id ≠ withdrawalId) ∨
      (x.id = withdrawalId ∧ x.status = .approved ∧ x.userId = userId ∧ x.amount = c))
    (hcalls : ∀ call ∈ w.calls, call.Knows w') : Inv w' := by
  obtain ⟨⟨user, huser, husers⟩, ⟨log, hlogs, htype, hremark, hlogUser, hlogAmount⟩,
    ⟨giftLog, hgiftLogs, hgiftId, hgiftUser, hgiftAmount⟩, hsame⟩ := hmoves
  have hlog : Allowed w log := by
    refine ⟨fun hcredit => ?_, fun hrefund => ?_⟩
    · rw [htype] at hcredit
      cases hcredit
    · rw [htype] at hrefund
      cases hrefund
  obtain ⟨hcredits, honce, hreverses⟩ := h.reversals_append hlog hlogs
  refine ⟨?_, hcredits, honce, hreverses, fun l hl id hl' => ?_, fun g hg => ?_, hids,
    fun x hx => ?_, fun x hx => ?_, ?_⟩
  · rw [husers, ← hlogUser]
    refine ledger_append h.ledger hlogs (hlogUser ▸ huser) ?_
    rw [hlogAmount]
    rfl
  · rcases List.mem_append.mp (hlogs ▸ hl) with hl | hl
    · exact (h.logIds l hl id hl').trans_le hnext
    · obtain rfl := List.mem_singleton.mp hl
      exact Remark.conversion.inj (hremark.symm.trans hl') ▸ hid
  · rcases List.mem_append.mp (hgiftLogs ▸ hg) with hg | hg
    · exact (h.giftIds g hg).trans_le hnext
    · obtain rfl := List.mem_singleton.mp hg
      exact hgiftId ▸ hid
  · rcases hwithdrawals x hx with ⟨hold, -⟩ | ⟨rfl, -⟩
    · exact (h.withdrawals x hold).trans_le hnext
    · exact hid
  · unfold World.SettledOnce
    simp only [hlogs, hgiftLogs, List.filter_append]
    rcases hwithdrawals x hx with ⟨hold, hother⟩ | ⟨rfl, hstatus, hxUser, hxAmount⟩
    · have hlogOther : [log].filter (·.remark == .conversion x.id) = [] := by
        have hneq : (log.remark == .conversion x.id) = false := by
          rw [hremark]
          exact beq_false_of_ne fun heq => hother (Remark.conversion.inj heq).symm
        simp [hneq]
      have hgiftOther : [giftLog].filter (·.withdrawalId == x.id) = [] := by
        have hneq : (giftLog.withdrawalId == x.id) = false := by
          rw [hgiftId]
          exact beq_false_of_ne fun heq => hother heq.symm
        simp [hneq]
      rw [hlogOther, hgiftOther, List.append_nil, List.append_nil]
      exact h.settledOnce x hold
    · rw [if_pos hstatus, hnone.1, hnone.2]
      refine ⟨log, giftLog, ?_, ?_, ⟨hlogUser.trans hxUser.symm, ?_⟩, hgiftUser.trans hxUser.symm, ?_⟩
      · simp [hremark]
      · simp [hgiftId]
      · rw [hlogAmount, hxAmount]
      · rw [hgiftAmount, hxAmount]
  · intro call hcall
    exact hcalls call (hsame ▸ hcall)

/-- Of the requests, only the pending one of that number is replaced. -/
theorem settle_spec (hids : (w.withdrawals.map (·.id)).Nodup) {f : Withdrawal → Withdrawal}
    (h : w.settle withdrawalId f = .ok w') (hf : ∀ x, (f x).id = x.id) :
    ∃ x ∈ w.withdrawals, x.id = withdrawalId ∧ x.status = .pending ∧
      w' = { w with withdrawals := w'.withdrawals } ∧
      w'.withdrawals.map (·.id) = w.withdrawals.map (·.id) ∧
      ∀ x' ∈ w'.withdrawals, (x' ∈ w.withdrawals ∧ x'.id ≠ withdrawalId) ∨ x' = f x := by
  unfold World.settle at h
  split_ifs at h with hany
  obtain ⟨x, hx, hpending⟩ := List.any_eq_true.mp hany
  rw [Bool.and_eq_true, beq_iff_eq, beq_iff_eq] at hpending
  obtain ⟨hid, hstatus⟩ := hpending
  obtain rfl := Except.ok.inj h
  refine ⟨x, hx, hid, hstatus, rfl, ?_, fun x' hx' => ?_⟩
  · show (w.withdrawals.map _).map _ = _
    rw [List.map_map]
    refine List.map_congr_left fun y _ => ?_
    show (if y.id = withdrawalId ∧ y.status = .pending then f y else y).id = y.id
    split_ifs
    · exact hf y
    · rfl
  · obtain ⟨y, hy, rfl⟩ := List.mem_map.mp hx'
    by_cases hsame : y.id = withdrawalId
    · obtain rfl : y = x := List.inj_on_of_nodup_map hids hy hx (hsame.trans hid.symm)
      exact .inr (if_pos ⟨hsame, hstatus⟩)
    · rw [if_neg fun hboth => hsame hboth.1]
      exact .inl ⟨hy, hsame⟩

/-- The request of a call that writes is settled; the other requests stay. -/
theorem write_spec (h : Inv w) (hknows : call.Knows w) (hwrite : w.write call = .ok w') :
    Inv w' ∧ Carries w w' ∧ w'.calls = w.calls ∧
      ∃ user, ∃ amount : Cents, w.users call.userId = some user ∧ call.amount = amount / 100 ∧
        w'.users = Function.update w.users call.userId (some
          { affBalance := user.affBalance - amount
            balance := user.balance + toUnits amount }) := by
  obtain ⟨c, hamount, hrequest⟩ := hknows
  unfold World.write at hwrite
  cases hkind : call.request with
  | createAffWithdrawal =>
    simp only [hkind] at hwrite
    obtain ⟨stored, hstored, hwrite⟩ := exists_of_bind_ok hwrite
    rw [hamount] at hstored
    obtain rfl := storeCents_cents hstored
    obtain ⟨hmoved, hwithdrawals, hnext⟩ := moveToBalance_spec hamount hwrite
    have hmoves : Moves w w' call.userId stored w.nextWithdrawalId :=
      ⟨hmoved.user, hmoved.log, hmoved.giftLog, hmoved.calls⟩
    obtain ⟨user, huser, husers⟩ := hmoves.user
    have hmem : ∀ x ∈ w'.withdrawals, x ∈ w.withdrawals ∨
        x = { id := w.nextWithdrawalId, userId := call.userId, amount := stored,
              status := .approved } := by
      intro x hx
      rw [hwithdrawals] at hx
      simpa using List.mem_append.mp hx
    refine ⟨h.converts hmoves ?_ ?_ ?_ ⟨?_, ?_⟩ (fun x hx => ?_) (fun call' hcall' => ?_),
      fun x hx => ?_, hmoved.calls, user, stored, huser, hamount, husers⟩
    · exact hnext ▸ Nat.le_succ _
    · exact hnext ▸ Nat.lt_succ_self _
    · rw [hwithdrawals]
      refine Keyed.nodup_append_singleton h.withdrawalIds ?_
      intro x hx
      exact (h.withdrawals x hx).ne
    · refine List.filter_eq_nil_iff.mpr fun log hlog hremark => ?_
      exact absurd (h.logIds log hlog _ (beq_iff_eq.mp hremark)) (Nat.lt_irrefl _)
    · refine List.filter_eq_nil_iff.mpr fun giftLog hgift hid => ?_
      exact absurd (h.giftIds giftLog hgift) (Nat.not_lt.mpr (beq_iff_eq.mp hid).ge)
    · rcases hmem x hx with hold | rfl
      · exact .inl ⟨hold, (h.withdrawals x hold).ne⟩
      · exact .inr ⟨rfl, rfl, rfl, rfl⟩
    · obtain ⟨c', hc', hrequest'⟩ := h.calls call' hcall'
      refine ⟨c', hc', ?_⟩
      cases hkind' : call'.request with
      | createAffWithdrawal => trivial
      | approveAffWithdrawal id adminId =>
        rw [hkind'] at hrequest'
        refine ⟨hnext ▸ hrequest'.1.trans (Nat.lt_succ_self _), fun x hx hid => ?_⟩
        rcases hmem x hx with hold | rfl
        · exact hrequest'.2 x hold hid
        · exact absurd hid hrequest'.1.ne'
    · rcases hmem x hx with hold | rfl
      · exact .inl hold
      · exact .inr (.inl le_rfl)
  | approveAffWithdrawal id adminId =>
    simp only [hkind] at hwrite hrequest
    obtain ⟨w₁, hmove, hwrite⟩ := exists_of_bind_ok hwrite
    obtain ⟨hmoved, hwithdrawals, hnext⟩ := moveToBalance_spec hamount hmove
    obtain ⟨x, hx, hid, hstatus, hsame, hids, hmem⟩ :=
      settle_spec (hwithdrawals ▸ h.withdrawalIds) hwrite fun _ => rfl
    rw [hwithdrawals] at hx hids hmem
    have husersSame : w'.users = w₁.users := by rw [hsame]
    have hlogsSame : w'.logs = w₁.logs := by rw [hsame]
    have hgiftsSame : w'.giftLogs = w₁.giftLogs := by rw [hsame]
    have hcallsSame : w'.calls = w₁.calls := by rw [hsame]
    have hnext' : w'.nextWithdrawalId = w.nextWithdrawalId := by rw [hsame]; exact hnext
    have hmoves : Moves w w' call.userId c id :=
      ⟨husersSame ▸ hmoved.user, hlogsSame ▸ hmoved.log, hgiftsSame ▸ hmoved.giftLog,
        hcallsSame.trans hmoved.calls⟩
    obtain ⟨user, huser, husers⟩ := hmoves.user
    obtain ⟨hless, hread⟩ := hrequest
    obtain ⟨hxUser, hxAmount⟩ := hread x hx hid
    have hnone : w.logs.filter (·.remark == .conversion id) = [] ∧
        w.giftLogs.filter (·.withdrawalId == id) = [] := by
      have hsettled := h.settledOnce x hx
      unfold World.SettledOnce at hsettled
      rwa [if_neg (by rw [hstatus]; decide), hid] at hsettled
    refine ⟨h.converts hmoves hnext'.ge (hnext' ▸ hless) (hids ▸ h.withdrawalIds) hnone
      (fun x' hx' => ?_) (fun call' hcall' => ?_), fun x' hx' => ?_, hmoves.calls,
      user, c, huser, hamount, husers⟩
    · rcases hmem x' hx' with hold | rfl
      · exact .inl hold
      · exact .inr ⟨hid, rfl, hxUser, hxAmount⟩
    · obtain ⟨c', hc', hrequest'⟩ := h.calls call' hcall'
      refine ⟨c', hc', ?_⟩
      cases hkind' : call'.request with
      | createAffWithdrawal => trivial
      | approveAffWithdrawal id' adminId' =>
        rw [hkind'] at hrequest'
        refine ⟨hnext' ▸ hrequest'.1, fun x' hx' hid' => ?_⟩
        rcases hmem x' hx' with hold | rfl
        · exact hrequest'.2 x' hold.1 hid'
        · exact hrequest'.2 x hx hid'
    · rcases hmem x' hx' with hold | rfl
      · exact .inl hold.1
      · exact .inr (.inr ⟨x, hx, rfl, hstatus⟩)

end Conversions

/-! ## The other steps -/

section Others

variable {w w' : World} {userId : ℕ}

/-- A request is rejected: it had no rows in the logs, and gets none. -/
theorem Inv.rejects (h : Inv w) {withdrawalId adminId : ℕ} {reason : String}
    (hreject : w.rejectAffWithdrawal withdrawalId adminId reason = .ok w') :
    Inv w' ∧ Carries w w' := by
  obtain ⟨x, hx, hid, hstatus, hsame, hids, hmem⟩ :=
    settle_spec h.withdrawalIds hreject fun _ => rfl
  have hlogs : w'.logs = w.logs := by rw [hsame]
  have hgiftLogs : w'.giftLogs = w.giftLogs := by rw [hsame]
  have hnext : w'.nextWithdrawalId = w.nextWithdrawalId := by rw [hsame]
  have hcarries : Carries w w' := by
    intro x' hx'
    rcases hmem x' hx' with hold | rfl
    · exact .inl hold.1
    · exact .inr (.inr ⟨x, hx, rfl, hstatus⟩)
  refine ⟨?_, hcarries⟩
  have hinv : Inv { w with withdrawals := w'.withdrawals } := by
    refine ⟨h.ledger, h.credits, h.reversedOnce, h.reversesCredit, h.logIds, h.giftIds,
      hids ▸ h.withdrawalIds, fun x' hx' => ?_, fun x' hx' => ?_, fun call hcall => ?_⟩
    · rcases hmem x' hx' with hold | rfl
      · exact h.withdrawals x' hold.1
      · exact h.withdrawals x hx
    · rcases hmem x' hx' with hold | rfl
      · exact h.settledOnce x' hold.1
      · have hsettled := h.settledOnce x hx
        unfold World.SettledOnce at hsettled ⊢
        rw [if_neg (by rw [hstatus]; decide)] at hsettled
        exact hsettled
    · obtain ⟨c, hc, hrequest⟩ := h.calls call hcall
      refine ⟨c, hc, ?_⟩
      cases hkind : call.request with
      | createAffWithdrawal => trivial
      | approveAffWithdrawal id' adminId' =>
        rw [hkind] at hrequest
        refine ⟨hrequest.1, fun x' hx' hid' => ?_⟩
        rcases hmem x' hx' with hold | rfl
        · exact hrequest.2 x' hold.1 hid'
        · exact hrequest.2 x hx hid'
  rw [hsame]
  exact hinv

theorem Log.dropCode_keeps (codeId : ℕ) (log : Log) :
    (log.dropCode codeId).id = log.id ∧ (log.dropCode codeId).userId = log.userId ∧
      (log.dropCode codeId).type = log.type ∧ (log.dropCode codeId).amount = log.amount ∧
      (log.dropCode codeId).instanceId = log.instanceId ∧
      (log.dropCode codeId).remark = log.remark := by
  unfold Log.dropCode
  split_ifs <;> exact ⟨rfl, rfl, rfl, rfl, rfl, rfl⟩

/-- The logs lose their code, and nothing else. -/
theorem Inv.deletesCode (h : Inv w) {codeId bindings : ℕ}
    (hdelete : w.deleteAffCode userId codeId bindings = .ok w') :
    Inv w' ∧ w'.withdrawals = w.withdrawals := by
  unfold World.deleteAffCode at hdelete
  cases hcode : w.codes codeId with
  | none => rw [hcode] at hdelete; cases hdelete
  | some affCode =>
    simp only [hcode] at hdelete
    split_ifs at hdelete
    obtain rfl := Except.ok.inj hdelete
    refine ⟨?_, rfl⟩
    let g := Log.dropCode codeId
    have hg := Log.dropCode_keeps codeId
    have hfilter : ∀ p : Log → Bool, (∀ log, p (g log) = p log) →
        (w.logs.map g).filter p = (w.logs.filter p).map g := by
      intro p hp
      rw [List.filter_map]
      exact congrArg _ (List.filter_congr fun log _ => hp log)
    refine ⟨fun u user huser => ?_, fun log hlog htype => ?_, fun instanceId logId => ?_,
      fun refund hrefund htype => ?_, fun log hlog id hremark => ?_, h.giftIds, h.withdrawalIds,
      h.withdrawals, fun x hx => ?_, h.calls⟩
    · have hsum : ((w.logs.map g).filter fun log => log.userId == u).map (·.amount) =
          (w.logs.filter fun log => log.userId == u).map (·.amount) := by
        rw [hfilter _ fun log => by rw [(hg log).2.1], List.map_map]
        exact List.map_congr_left fun log _ => (hg log).2.2.2.1
      exact (h.ledger u user huser).trans (congrArg List.sum hsum).symm
    · obtain ⟨log, hmem, rfl⟩ := List.mem_map.mp hlog
      obtain ⟨-, -, hlogType, hlogAmount, -⟩ := hg log
      exact hlogAmount.symm ▸ h.credits log hmem (hlogType.symm.trans htype)
    · show ((w.logs.map g).filter _).length ≤ 1
      rw [hfilter _ fun log => ?_, List.length_map]
      · exact h.reversedOnce instanceId logId
      · obtain ⟨-, -, htype, -, hinstance, hremark⟩ := hg log
        unfold isReversal
        rw [htype, hinstance, hremark]
    · obtain ⟨log, hlog, rfl⟩ := List.mem_map.mp hrefund
      obtain ⟨-, hlogUser, hlogType, hlogAmount, hlogInstance, hlogRemark⟩ := hg log
      obtain ⟨c, hc, hctype, hcinstance, hcuser, hcremark, hcamount⟩ :=
        h.reversesCredit log hlog (hlogType.symm.trans htype)
      obtain ⟨hcId, hcUser, hcType, hcAmount, hcInstance, -⟩ := hg c
      refine ⟨g c, List.mem_map_of_mem hc, hcType.trans hctype, ?_, ?_, ?_, ?_⟩
      · exact (hcInstance.trans hcinstance).trans hlogInstance.symm
      · exact (hcUser.trans hcuser).trans hlogUser.symm
      · exact hcId.symm ▸ hlogRemark.trans hcremark
      · exact hcAmount.symm ▸ hlogAmount.trans hcamount
    · obtain ⟨log, hmem, rfl⟩ := List.mem_map.mp hlog
      exact h.logIds log hmem id ((hg log).2.2.2.2.2.symm.trans hremark)
    · have hconversion := hfilter (·.remark == .conversion x.id) fun log => by
        rw [(hg log).2.2.2.2.2]
      have hsettled := h.settledOnce x hx
      unfold World.SettledOnce at hsettled ⊢
      by_cases hstatus : x.status = .approved
      · rw [if_pos hstatus] at hsettled ⊢
        obtain ⟨log, giftLog, hlog, hgift, ⟨hlogUser, hlogAmount⟩, hrest⟩ := hsettled
        obtain ⟨-, hgUser, -, hgAmount, -⟩ := hg log
        refine ⟨g log, giftLog, ?_, hgift, ⟨hgUser.trans hlogUser, hgAmount.trans hlogAmount⟩, hrest⟩
        exact hconversion.trans (congrArg (List.map g) hlog)
      · rw [if_neg hstatus] at hsettled ⊢
        exact ⟨hconversion.trans (congrArg (List.map g) hsettled.1), hsettled.2⟩

/-- A user takes every row along: the rows that belong together are one user's. -/
theorem Inv.deletesUser (h : Inv w) (deleted : ℕ) : Inv (w.deleteUser deleted) := by
  have hkeep : ∀ log : Log, log ∈ (w.deleteUser deleted).logs ↔
      log ∈ w.logs ∧ log.userId ≠ deleted := by
    intro log
    show log ∈ w.logs.filter (·.userId != deleted) ↔ _
    simp [List.mem_filter]
  refine ⟨fun u user huser => ?_, fun log hlog => h.credits log ((hkeep log).mp hlog).1,
    fun instanceId logId => ?_, fun refund hrefund htype => ?_,
    fun log hlog => h.logIds log ((hkeep log).mp hlog).1,
    fun giftLog hgift => h.giftIds giftLog (List.mem_filter.mp hgift).1,
    h.withdrawalIds.sublist (List.filter_sublist.map _),
    fun x hx => h.withdrawals x (List.mem_filter.mp hx).1, fun x hx => ?_, fun call hcall => ?_⟩
  · have hupdated : Function.update w.users deleted none u = some user := huser
    by_cases hsame : u = deleted
    · rw [hsame, Function.update_self] at hupdated
      cases hupdated
    · rw [Function.update_of_ne hsame] at hupdated
      rw [h.ledger u user hupdated]
      unfold World.sumOf
      show _ = (List.map _ ((w.logs.filter _).filter _)).sum
      rw [List.filter_filter]
      refine congrArg (fun l => (List.map (fun log : Log => log.amount) l).sum)
        (List.filter_congr fun log _ => ?_)
      by_cases hlog : log.userId = u
      · simp [hlog, hsame]
      · simp [hlog]
  · show ((w.logs.filter _).filter _).length ≤ 1
    exact ((List.filter_sublist.filter _).length_le).trans (h.reversedOnce instanceId logId)
  · obtain ⟨hmem, huser⟩ := (hkeep refund).mp hrefund
    obtain ⟨c, hc, hctype, hcinstance, hcuser, hrest⟩ := h.reversesCredit refund hmem htype
    exact ⟨c, (hkeep c).mpr ⟨hc, hcuser ▸ huser⟩, hctype, hcinstance, hcuser, hrest⟩
  · obtain ⟨hmem, huser⟩ := List.mem_filter.mp hx
    rw [bne_iff_ne] at huser
    have hsettled := h.settledOnce x hmem
    unfold World.SettledOnce at hsettled ⊢
    by_cases hstatus : x.status = .approved
    · rw [if_pos hstatus] at hsettled ⊢
      obtain ⟨log, giftLog, hlog, hgift, ⟨hlogUser, hlogAmount⟩, hgiftUser, hgiftAmount⟩ := hsettled
      refine ⟨log, giftLog, ?_, ?_, ⟨hlogUser, hlogAmount⟩, hgiftUser, hgiftAmount⟩
      · show (w.logs.filter _).filter _ = _
        rw [List.filter_comm, hlog]
        simp [hlogUser, huser]
      · show (w.giftLogs.filter _).filter _ = _
        rw [List.filter_comm, hgift]
        simp [hgiftUser, huser]
    · rw [if_neg hstatus] at hsettled ⊢
      constructor
      · show (w.logs.filter _).filter _ = _
        rw [List.filter_comm, hsettled.1]
        rfl
      · show (w.giftLogs.filter _).filter _ = _
        rw [List.filter_comm, hsettled.2]
        rfl
  · obtain ⟨c, hc, hrequest⟩ := h.calls call hcall
    refine ⟨c, hc, ?_⟩
    cases hkind : call.request with
    | createAffWithdrawal => trivial
    | approveAffWithdrawal id adminId =>
      rw [hkind] at hrequest
      exact ⟨hrequest.1, fun x hx => hrequest.2 x (List.mem_filter.mp hx).1⟩

/-- The calls change, and nothing else. -/
theorem Inv.setCalls (h : Inv w) {calls : List Call} (hcalls : ∀ call ∈ calls, call.Knows w) :
    Inv { w with calls } :=
  ⟨h.ledger, h.credits, h.reversedOnce, h.reversesCredit, h.logIds, h.giftIds, h.withdrawalIds,
    h.withdrawals, h.settledOnce, hcalls⟩

theorem Inv.endCall (h : Inv w) (k : ℕ) : Inv (w.endCall k) :=
  h.setCalls fun call hcall => h.calls call (List.mem_of_mem_eraseIdx hcall)

theorem Inv.addCall (h : Inv w) {call : Call} (hcall : call.Knows w) :
    Inv { w with calls := w.calls ++ [call] } := by
  refine h.setCalls fun call' hcall' => ?_
  rcases List.mem_append.mp hcall' with hold | hnew
  · exact h.calls call' hold
  · obtain rfl := List.mem_singleton.mp hnew
    exact hcall

/-- The amount is rounded before anything is read. -/
theorem Inv.convert (h : Inv w) {fl : ℚ → ℚ} {amount : ℚ} (hconvert : w.convert fl userId amount = .ok w') :
    Inv w' ∧ w'.withdrawals = w.withdrawals := by
  unfold World.convert at hconvert
  split_ifs at hconvert
  simp only [World.createAffWithdrawal] at hconvert
  split_ifs at hconvert
  cases huser : w.users userId with
  | none => rw [huser] at hconvert; cases hconvert
  | some user =>
    simp only [huser] at hconvert
    split_ifs at hconvert
    obtain rfl := Except.ok.inj hconvert
    exact ⟨h.addCall ⟨_, rfl, trivial⟩, rfl⟩

theorem Inv.approves (h : Inv w) {withdrawalId adminId : ℕ}
    (happrove : w.approveAffWithdrawal withdrawalId adminId = .ok w') :
    Inv w' ∧ w'.withdrawals = w.withdrawals := by
  unfold World.approveAffWithdrawal at happrove
  cases hfind : w.findWithdrawal withdrawalId with
  | none => rw [hfind] at happrove; cases happrove
  | some x =>
    simp only [hfind] at happrove
    split_ifs at happrove
    cases huser : w.users x.userId with
    | none => rw [huser] at happrove; cases happrove
    | some user =>
      simp only [huser] at happrove
      split_ifs at happrove
      obtain rfl := Except.ok.inj happrove
      have hx : x ∈ w.withdrawals := List.mem_of_find?_eq_some hfind
      have hid : x.id = withdrawalId := by simpa using List.find?_some hfind
      refine ⟨h.addCall ⟨x.amount, rfl, hid ▸ h.withdrawals x hx, fun y hy hsame => ?_⟩, rfl⟩
      obtain rfl : y = x := List.inj_on_of_nodup_map h.withdrawalIds hy hx (hsame.trans hid.symm)
      exact ⟨rfl, rfl⟩

/-- Another movement of the main balance leaves the AFF balance alone. -/
theorem Inv.setsBalance (h : Inv w) {user : User} (huser : w.users userId = some user)
    (balance : Units) :
    Inv { w with users := Function.update w.users userId (some { user with balance }) } := by
  refine ⟨fun u after hafter => ?_, h.credits, h.reversedOnce, h.reversesCredit, h.logIds,
    h.giftIds, h.withdrawalIds, h.withdrawals, h.settledOnce, h.calls⟩
  have hupdated : Function.update w.users userId (some { user with balance }) u = some after := hafter
  by_cases hsame : u = userId
  · rw [hsame, Function.update_self] at hupdated
    obtain rfl := Option.some.inj hupdated
    exact hsame ▸ h.ledger userId user huser
  · rw [Function.update_of_ne hsame] at hupdated
    exact h.ledger u after hupdated

end Others

/-! ## Every step, and every run -/

section Steps

variable {fl : ℚ → ℚ} {w w' : World} {event : Event}

theorem Carries.of_eq (h : w'.withdrawals = w.withdrawals) : Carries w w' :=
  fun _ hx' => .inl (h ▸ hx')

/-- Every step but a commit. -/
theorem affStep_inv (h : Inv w) (hstep : affStep fl w event = some w')
    (hevent : ∀ k, event ≠ .commit k) : Inv w' ∧ Carries w w' := by
  cases event <;> simp only [affStep] at hstep
  case createAffCode userId =>
    obtain rfl := Option.some.inj hstep
    exact ⟨⟨h.ledger, h.credits, h.reversedOnce, h.reversesCredit, h.logIds, h.giftIds,
      h.withdrawalIds, h.withdrawals, h.settledOnce, h.calls⟩, .of_eq rfl⟩
  case deleteAffCode userId codeId bindings =>
    obtain ⟨hinv, hsame⟩ := h.deletesCode (toOption_eq_some hstep)
    exact ⟨hinv, .of_eq hsame⟩
  case processAffCommission codeId instanceId price isNewPurchase =>
    split_ifs at hstep
    rcases processAffCommission_spec (toOption_eq_some hstep) with rfl | ⟨log, hposts, hlog, hother⟩
    · exact ⟨h, .of_eq rfl⟩
    · exact ⟨h.posts hlog hother hposts, .of_eq hposts.withdrawals⟩
  case reverseAffCommissionForInstance instanceId =>
    have hcommissions : ∀ c ∈ w.purchaseCommissions instanceId,
        c ∈ w.logs ∧ c.instanceId = some instanceId ∧ c.type = .newPurchase := by
      intro c hc
      obtain ⟨hmem, hp⟩ := List.mem_filter.mp hc
      rw [Bool.and_eq_true, Bool.and_eq_true, beq_iff_eq, beq_iff_eq] at hp
      exact ⟨hmem, hp.1⟩
    obtain ⟨hinv, hsame⟩ := h.reverses hcommissions (toOption_eq_some hstep)
    exact ⟨hinv, .of_eq hsame⟩
  case convert userId amount =>
    split_ifs at hstep
    obtain ⟨hinv, hsame⟩ := h.convert (toOption_eq_some hstep)
    exact ⟨hinv, .of_eq hsame⟩
  case approveAffWithdrawal withdrawalId adminId =>
    split_ifs at hstep
    obtain ⟨hinv, hsame⟩ := h.approves (toOption_eq_some hstep)
    exact ⟨hinv, .of_eq hsame⟩
  case commit k => exact absurd rfl (hevent k)
  case crash k =>
    split_ifs at hstep
    obtain rfl := Option.some.inj hstep
    exact ⟨h.endCall k, .of_eq rfl⟩
  case rejectAffWithdrawal withdrawalId adminId reason =>
    exact h.rejects (toOption_eq_some hstep)
  case setBalance userId balance =>
    cases huser : w.users userId with
    | none => rw [huser] at hstep; cases hstep
    | some user =>
      rw [huser] at hstep
      obtain rfl := Option.some.inj hstep
      exact ⟨h.setsBalance huser balance, .of_eq rfl⟩
  case deleteUser userId =>
    obtain rfl := Option.some.inj hstep
    exact ⟨h.deletesUser userId, fun x hx => .inl (List.mem_filter.mp hx).1⟩

/-- A commit writes everything, or nothing. -/
theorem commit_cases (h : Inv w) {k : ℕ} {call : Call} (hcall : w.calls[k]? = some call)
    (hstep : affStep fl w (.commit k) = some w') :
    w' = w.endCall k ∨ ∃ w₁, w.write call = .ok w₁ ∧ w' = w₁.endCall k ∧
      Inv w₁ ∧ Carries w w₁ := by
  simp only [affStep, hcall] at hstep
  cases hwrite : w.write call with
  | error error =>
    rw [hwrite] at hstep
    exact .inl (Option.some.inj hstep).symm
  | ok w₁ =>
    rw [hwrite] at hstep
    obtain ⟨hinv, hcarries, -⟩ := write_spec h (h.calls call (List.mem_of_getElem? hcall)) hwrite
    exact .inr ⟨w₁, rfl, (Option.some.inj hstep).symm, hinv, hcarries⟩

theorem affStep_keeps (h : Inv w) (hstep : affStep fl w event = some w') :
    Inv w' ∧ Carries w w' := by
  cases event
  case commit k =>
    cases hcall : w.calls[k]? with
    | none => simp only [affStep, hcall] at hstep; cases hstep
    | some call =>
      rcases commit_cases h hcall hstep with rfl | ⟨w₁, -, rfl, hinv, hcarries⟩
      · exact ⟨h.endCall k, .of_eq rfl⟩
      · exact ⟨hinv.endCall k, hcarries⟩
  all_goals exact affStep_inv h hstep fun k hk => by cases hk

theorem affStep_sound (h : Inv w) (hstep : affStep fl w event = some w') :
    StepSound w w' event where
  moves := by
    rintro k call rfl hcall
    rcases commit_cases h hcall hstep with rfl | ⟨w₁, hwrite, rfl, -⟩
    · exact .inl ⟨rfl, rfl, rfl⟩
    · exact .inr (write_spec h (h.calls call (List.mem_of_getElem? hcall)) hwrite).2.2.2
  settled := h.settled (affStep_keeps h hstep).2

theorem World.Starts.inv (h : w.Starts) : Inv w := by
  have hnil : ∀ p : Log → Bool, w.logs.filter p = [] := by
    intro p
    rw [h.logs]
    rfl
  refine ⟨fun userId user huser => ?_, fun log hlog => ?_, fun instanceId logId => ?_,
    fun log hlog => ?_, fun log hlog => ?_, fun giftLog hgift => ?_, h.withdrawalIds,
    fun x hx => (h.withdrawals x hx).1, fun x hx => ?_, fun call hcall => ?_⟩
  · rw [h.users userId user huser, World.sumOf, hnil]
    rfl
  · exact absurd (h.logs ▸ hlog) List.not_mem_nil
  · rw [hnil]
    exact Nat.zero_le 1
  · exact absurd (h.logs ▸ hlog) List.not_mem_nil
  · exact absurd (h.logs ▸ hlog) List.not_mem_nil
  · exact absurd (h.giftLogs ▸ hgift) List.not_mem_nil
  · unfold World.SettledOnce
    rw [if_neg (by rw [(h.withdrawals x hx).2]; decide), h.giftLogs]
    exact ⟨hnil _, rfl⟩
  · exact absurd (h.calls ▸ hcall) List.not_mem_nil

theorem Inv.sound (h : Inv w) : Sound w :=
  ⟨h.ledger, h.reversedOnce, h.reversesCredit, h.notBelowCredited, h.settledOnce⟩

/-- Balances and logs agree in every state, a commission is taken back at most once, and a request
is settled once, with one amount. -/
theorem aff_ledger {w₀ : World} (hstart : w₀.Starts)
    (h : Machine.Reach (affStep fl) Machine.free w₀ w) :
    Sound w ∧ ∀ event w', affStep fl w event = some w' → StepSound w w' event := by
  have hinv : Inv w := h.invariant hstart.inv fun hinv _ hstep => (affStep_keeps hinv hstep).1
  exact ⟨hinv.sound, fun event w' => affStep_sound hinv⟩

end Steps

/-- A user with a request, and an administrator. -/
def twoUsers : World where
  users := fun userId => if userId < 2 then some {} else none
  codes := fun _ => none
  withdrawals := [{ id := 1, userId := 0, amount := 100 }]
  nextCodeId := 1
  nextWithdrawalId := 2

/-- Two commissions, one of them taken back twice, a conversion of three decimals, and an approval
that a rejection comes before. -/
theorem aff_ledger_run : ∃ w, Machine.Reach (affStep id) Machine.free twoUsers w ∧
    ((w.users 0).map (·.affBalance) = some 384 ∧
      w.logs.map (·.amount) = [500, 250, -250, -116] ∧
      w.withdrawals.map (·.status) = [.rejected, .approved]) ∧
    Sound w ∧ ∀ event w', affStep id w event = some w' → StepSound w w' event := by
  have h : (Machine.exec (affStep id) twoUsers
      [.createAffCode 0, .processAffCommission 1 7 100 true, .processAffCommission 1 8 50 true,
        .reverseAffCommissionForInstance 8, .reverseAffCommissionForInstance 8,
        .convert 0 (1155 / 1000), .commit 0, .approveAffWithdrawal 1 1,
        .rejectAffWithdrawal 1 1 "no", .commit 0]).map
      (fun w => ((w.users 0).map (·.affBalance), w.logs.map (·.amount),
        w.withdrawals.map (·.status))) =
      some (some 384, [500, 250, -250, -116], [.rejected, .approved]) := by
    decide +kernel
  obtain ⟨w, hexec, hw⟩ := Option.map_eq_some_iff.mp h
  have hreach := Machine.reach_of_exec hexec
  obtain ⟨hbalance, hlogs⟩ := Prod.mk.inj hw
  have hstart : twoUsers.Starts := by
    refine ⟨fun userId user huser => ?_, rfl, rfl, rfl, by decide, by decide⟩
    simp only [twoUsers] at huser
    split_ifs at huser
    exact (Option.some.inj huser) ▸ rfl
  exact ⟨w, hreach, ⟨hbalance, Prod.mk.inj hlogs⟩, aff_ledger hstart hreach⟩

end Incudal.Aff
