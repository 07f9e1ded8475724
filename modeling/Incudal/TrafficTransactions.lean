/-
# `TrafficTransactions` — what a billing transaction writes

A settlement and the payment of a pending bill come down to four outcomes: the
tables stay as they are up to the billing time, a bill is left owing, a bill is
charged at once, or a pending bill is paid.  `BillingDone` has one constructor
for each, with everything that later arguments need: the rewrite of the instance
(`SettlesFor`), the bill (`BillOver`), the debit with its log (`Debits`).  The
two functions of the source are unfolded here and nowhere else
(`settleInstance_done`, `payPendingTrafficBill_done`).
-/
import Incudal.TrafficBilling
import Mathlib.Tactic.Ring

namespace Incudal

/-- A rewrite of the instance that settles `bytes` for `cost` and keeps owner, host, price and the
usage. -/
structure SettlesFor (bytes : ℕ) (cost : Cents) (f : TrafficInstance → TrafficInstance) : Prop where
  id : ∀ inst, (f inst).id = inst.id
  hostId : ∀ inst, (f inst).hostId = inst.hostId
  totalOverage : ∀ inst, (f inst).totalOverage = inst.totalOverage
  trafficUnitPrice : ∀ inst, (f inst).trafficUnitPrice = inst.trafficUnitPrice
  trafficSettledBytes : ∀ inst, (f inst).trafficSettledBytes = inst.trafficSettledBytes + bytes
  trafficSettledCost : ∀ inst, (f inst).trafficSettledCost = inst.trafficSettledCost + cost

namespace TrafficBillingDb

variable (db : TrafficBillingDb)

/-- The pending bill that a settlement pays, if it comes to that: the instance
is due, it has a pending bill, and the wallet covers it. -/
def billSettled (k : ℕ) (now : Time) (trigger : SettlementTrigger) :
    Option TrafficBillingRecord :=
  match db.findInstance k with
  | some inst =>
      if inst.settlementDue now trigger then
        (db.pendingRecord k).filter fun pending => db.covers inst.userId (toUnits pending.amount)
      else none
  | none => none

/-- The amount of the bill that a settlement makes, zero where it makes none: the instance is
due, owes no bill, and its unsettled bytes reach the threshold. -/
def amountBilled (k : ℕ) (now : Time) (trigger : SettlementTrigger) : ℕ :=
  match db.findInstance k with
  | some inst =>
      if inst.settlementDue now trigger ∧ db.pendingRecord k = none ∧
          trigger.threshold ≤ inst.unsettledBytes then
        trafficAmount inst.unsettledBytes inst.trafficUnitPrice
      else 0
  | none => 0

end TrafficBillingDb

/-- A bill over the unsettled bytes of instance `k` at `now`. -/
structure BillOver (tz : Time) (db : TrafficBillingDb) (k : ℕ) (now : Time)
    (inst : TrafficInstance) (bill : TrafficBillingRecord) : Prop where
  owner : bill.instanceId = k
  amount : bill.amount = trafficAmount inst.unsettledBytes inst.trafficUnitPrice
  bytes : bill.trafficBytes = billingBytesOf (trafficAmount inst.unsettledBytes
    inst.trafficUnitPrice) inst.trafficUnitPrice
  price : inst.trafficUnitPrice ≠ 0
  period : db.trafficPeriodStart tz inst now ≤ bill.periodStart

/-- A wallet is debited, and the log says so. -/
structure Debits (db db' : TrafficBillingDb) (userId k : ℕ) (amount : Units) (log : BalanceLog) :
    Prop where
  id : log.id = db.nextId
  type : log.type = .consume
  owner : log.userId = userId ∧ log.instanceId = some k
  taken : log.amount = -amount
  before : db.balance userId = some log.balanceBefore ∧ amount ≤ log.balanceBefore
  after : log.balanceAfter = log.balanceBefore - amount
  balance : db'.balance = Function.update db.balance userId (some log.balanceAfter)
  logs : db'.balanceLogs = log :: db.balanceLogs

/-- Later writes to other tables leave the debit as it is. -/
theorem Debits.of_eq {db db' db'' : TrafficBillingDb} {userId k : ℕ} {amount : Units}
    {log : BalanceLog} (h : Debits db db' userId k amount log)
    (balance : db''.balance = db'.balance) (logs : db''.balanceLogs = db'.balanceLogs) :
    Debits db db'' userId k amount log where
  id := h.id
  type := h.type
  owner := h.owner
  taken := h.taken
  before := h.before
  after := h.after
  balance := balance.trans h.balance
  logs := logs.trans h.logs

/-- The outcomes of a billing transaction on instance `k` at `now`.  A bill that it makes has
the amount `billable`, a bill that it pays is `payable`. -/
inductive BillingDone (tz : Time) (k : ℕ) (now : Time) (payable : Option TrafficBillingRecord)
    (billable : ℕ) (db db' : TrafficBillingDb) : Prop
  | idle {f : TrafficInstance → TrafficInstance} (hf : SettlesFor 0 0 f)
      (instances : db'.instances = Keyed.modify TrafficInstance.id k f db.instances)
      (resetDay : db'.trafficResetDay = db.trafficResetDay) (balance : db'.balance = db.balance)
      (records : db'.records = db.records) (logs : db'.balanceLogs = db.balanceLogs)
      (nextId : db'.nextId = db.nextId)
  | owe {f : TrafficInstance → TrafficInstance} {inst : TrafficInstance}
      {bill : TrafficBillingRecord} (hf : SettlesFor 0 0 f)
      (found : db.findInstance k = some inst) (noDebt : db.pendingRecord k = none)
      (billOver : BillOver tz db k now inst bill) (billed : bill.amount = billable)
      (positive : 0 < billable) (unpaid : bill.status = .pending ∧ bill.balanceLogId = none)
      (fresh : bill.id = db.nextId)
      (instances : db'.instances = Keyed.modify TrafficInstance.id k f db.instances)
      (resetDay : db'.trafficResetDay = db.trafficResetDay) (balance : db'.balance = db.balance)
      (records : db'.records = bill :: db.records) (logs : db'.balanceLogs = db.balanceLogs)
      (nextId : db'.nextId = db.nextId + 1)
  | charge {f : TrafficInstance → TrafficInstance} {inst : TrafficInstance}
      {bill : TrafficBillingRecord} {log : BalanceLog}
      (hf : SettlesFor bill.trafficBytes bill.amount f)
      (found : db.findInstance k = some inst) (noDebt : db.pendingRecord k = none)
      (billOver : BillOver tz db k now inst bill) (billed : bill.amount = billable)
      (positive : 0 < billable)
      (paid : bill.status = .paid ∧ bill.balanceLogId = some log.id)
      (fresh : bill.id = db.nextId + 1)
      (instances : db'.instances = Keyed.modify TrafficInstance.id k f db.instances)
      (resetDay : db'.trafficResetDay = db.trafficResetDay)
      (records : db'.records = bill :: db.records) (nextId : db'.nextId = db.nextId + 2)
      (debit : Debits db db' inst.userId k (toUnits bill.amount) log)
  | pay {f : TrafficInstance → TrafficInstance} {inst : TrafficInstance}
      {pending : TrafficBillingRecord} {g : TrafficBillingRecord → TrafficBillingRecord}
      {log : BalanceLog}
      (hf : SettlesFor
        (if pending.periodStart < db.trafficPeriodStart tz inst now then 0
          else pending.trafficBytes)
        (if pending.periodStart < db.trafficPeriodStart tz inst now then 0
          else pending.amount) f)
      (found : db.findInstance k = some inst) (chosen : payable = some pending)
      (mem : pending ∈ db.records) (debt : pending.status = .pending)
      (owner : pending.instanceId = k)
      (hg : ∀ r, (g r).id = r.id ∧ (g r).instanceId = r.instanceId ∧ (g r).status = .paid)
      (paid : g pending = { pending with
        unitPrice := (g pending).unitPrice, status := .paid, periodEnd := now
        balanceLogId := some log.id })
      (instances : db'.instances = Keyed.modify TrafficInstance.id k f db.instances)
      (resetDay : db'.trafficResetDay = db.trafficResetDay)
      (records : db'.records = Keyed.modify TrafficBillingRecord.id pending.id g db.records)
      (nextId : db'.nextId = db.nextId + 1)
      (debit : Debits db db' inst.userId k (toUnits pending.amount) log)

section Transactions

variable {tz : Time} {db db' : TrafficBillingDb} {k userId : ℕ} {now : Time}
  {trigger : SettlementTrigger} {payable : Option TrafficBillingRecord} {billable : ℕ}

theorem billingBytesOf_le (bytes unitPrice : ℕ) :
    billingBytesOf (trafficAmount bytes unitPrice) unitPrice ≤ bytes := by
  unfold billingBytesOf trafficAmount
  refine Nat.div_le_of_le_mul ?_
  calc bytes * unitPrice / (100 * GIB) * 100 * GIB
      = bytes * unitPrice / (100 * GIB) * (100 * GIB) := by ring
    _ ≤ bytes * unitPrice := Nat.div_mul_le_self _ _
    _ = unitPrice * bytes := Nat.mul_comm _ _

/-- The debit touches the wallet and its log only. -/
theorem consume_some {amount : Units} {charged : TrafficBillingDb} {logId : ℕ}
    (h : db.consume userId amount k = some (charged, logId)) :
    ∃ log, log.id = logId ∧ Debits db charged userId k amount log ∧
      charged.instances = db.instances ∧ charged.trafficResetDay = db.trafficResetDay ∧
      charged.records = db.records ∧ charged.nextId = db.nextId + 1 ∧
      db.covers userId amount = true := by
  simp only [TrafficBillingDb.consume] at h
  cases hb : db.balance userId with
  | none => simp [hb] at h
  | some balance =>
      simp only [hb] at h
      split at h
      · rename_i hge
        simp only [Option.some.injEq, Prod.mk.injEq] at h
        obtain ⟨rfl, rfl⟩ := h
        exact ⟨_, rfl, ⟨rfl, rfl, ⟨rfl, rfl⟩, rfl, ⟨hb, hge⟩, rfl, rfl, rfl⟩, rfl, rfl, rfl, rfl,
          by simpa [TrafficBillingDb.covers, hb] using hge⟩
      · simp at h

theorem pendingRecord_some {pending : TrafficBillingRecord}
    (h : db.pendingRecord k = some pending) :
    pending ∈ db.records ∧ pending.instanceId = k ∧ pending.status = .pending := by
  refine ⟨List.mem_of_find?_eq_some h, ?_⟩
  simpa using List.find?_some h

theorem owedRecord_some {pending : TrafficBillingRecord}
    (h : db.owedRecord k userId = some pending) :
    pending ∈ db.records ∧ pending.instanceId = k ∧ pending.status = .pending := by
  have := List.find?_some h
  simp only [Bool.and_eq_true, beq_iff_eq] at this
  exact ⟨List.mem_of_find?_eq_some h, this.1.1, this.2⟩

/-- A transaction that leaves the tables alone is an idle one. -/
theorem billingDone_refl : BillingDone tz k now payable billable db db :=
  .idle (f := id) ⟨fun _ => rfl, fun _ => rfl, fun _ => rfl, fun _ => rfl, fun _ => rfl,
    fun _ => (add_zero _).symm⟩ (by simp) rfl rfl rfl rfl rfl

theorem billingDone_postponed (next : Option Time) :
    BillingDone tz k now payable billable db
      (db.updateInstance k ({ · with nextTrafficBillingAt := next })) := by
  refine .idle ?_ rfl rfl rfl rfl rfl rfl
  exact ⟨fun _ => rfl, fun _ => rfl, fun _ => rfl, fun _ => rfl, fun _ => rfl,
    fun _ => (add_zero _).symm⟩

/-- A bill starts with the period, or where the last paid bill ended. -/
theorem periodStart_ge (start : Time) (last : Option Time) :
    start ≤ (match last with
      | some periodEnd => if periodEnd > start then periodEnd else start
      | none => start) := by
  cases last with
  | none => exact le_rfl
  | some periodEnd =>
    dsimp only
    split
    · rename_i h
      exact h.le
    · exact le_rfl

theorem settleInstance_done :
    BillingDone tz k now (db.billSettled k now trigger) (db.amountBilled k now trigger) db
      (settleInstance tz db k now trigger).1 := by
  unfold settleInstance
  cases hinst : db.findInstance k with
  | none => exact billingDone_refl
  | some inst =>
      dsimp only
      split
      · exact billingDone_refl
      rename_i hdue
      rw [Bool.not_eq_true, Bool.not_eq_false'] at hdue
      split
      · split
        · exact billingDone_postponed _
        · exact billingDone_refl
      rename_i hthreshold
      split
      · exact billingDone_postponed _
      cases hdebt : db.pendingRecord k with
      | some pending =>
          obtain ⟨hmem, howner, hstatus⟩ := pendingRecord_some hdebt
          dsimp only
          split
          · split
            · exact billingDone_postponed _
            · exact billingDone_refl
          cases hpaid : db.consume inst.userId (toUnits pending.amount) k with
          | none =>
              refine .idle ?_ rfl rfl rfl rfl rfl rfl
              exact ⟨fun _ => rfl, fun _ => rfl, fun _ => rfl, fun _ => rfl, fun _ => rfl,
                fun _ => (add_zero _).symm⟩
          | some paid =>
              obtain ⟨charged, logId⟩ := paid
              obtain ⟨log, rfl, hdebit, hinstances, hday, hrecords, hnext, hcovers⟩ :=
                consume_some hpaid
              have hchosen : db.billSettled k now trigger = some pending := by
                simp [TrafficBillingDb.billSettled, hinst, hdue, hdebt, hcovers]
              refine .pay ?_ hinst hchosen hmem hstatus howner ?_ ?_
                (congrArg (Keyed.modify _ _ _) hinstances) hday
                (congrArg (Keyed.modify _ _ _) hrecords) hnext (hdebit.of_eq rfl rfl)
              · exact ⟨fun _ => rfl, fun _ => rfl,
                  fun _ => by simp only [TrafficInstance.totalOverage], fun _ => rfl,
                  fun _ => by simp, fun _ => by simp⟩
              · exact fun _ => ⟨rfl, rfl, rfl⟩
              · rfl
      | none =>
          simp only [Int.toNat_natCast]
          split
          · split
            · exact billingDone_postponed _
            · exact billingDone_refl
          rename_i hamount
          have hpositive : 0 < trafficAmount inst.unsettledBytes inst.trafficUnitPrice :=
            Int.natCast_pos.mp (not_le.mp hamount)
          have hreached : trigger.threshold ≤ inst.unsettledBytes :=
            not_lt.mp fun hlt => hthreshold ⟨hlt, hdebt⟩
          have hprice : inst.trafficUnitPrice ≠ 0 := by
            simp only [TrafficInstance.settlementDue, Bool.and_eq_true, bne_iff_ne] at hdue
            exact hdue.1.2
          have hbillable : db.amountBilled k now trigger =
              trafficAmount inst.unsettledBytes inst.trafficUnitPrice := by
            rw [TrafficBillingDb.amountBilled, hinst]
            exact if_pos ⟨hdue, hdebt, hreached⟩
          rw [hbillable]
          cases hpaid : db.consume inst.userId
              (toUnits (trafficAmount inst.unsettledBytes inst.trafficUnitPrice)) k with
          | none =>
              refine .owe ?_ hinst hdebt ⟨rfl, rfl, rfl, hprice, ?_⟩ rfl hpositive
                ⟨rfl, rfl⟩ rfl rfl rfl rfl rfl rfl rfl
              · exact ⟨fun _ => rfl, fun _ => rfl, fun _ => rfl, fun _ => rfl, fun _ => rfl,
                  fun _ => (add_zero _).symm⟩
              · exact periodStart_ge _ _
          | some paid =>
              obtain ⟨charged, logId⟩ := paid
              obtain ⟨log, rfl, hdebit, hinstances, hday, hrecords, hnext, -⟩ :=
                consume_some hpaid
              refine .charge ?_ hinst hdebt ⟨rfl, rfl, rfl, hprice, ?_⟩ rfl hpositive
                ⟨rfl, rfl⟩ hnext (congrArg (Keyed.modify _ _ _) hinstances) hday
                (congrArg _ hrecords) (congrArg (· + 1) hnext) (hdebit.of_eq rfl rfl)
              · exact ⟨fun _ => rfl, fun _ => rfl,
                  fun _ => by simp only [TrafficInstance.totalOverage], fun _ => rfl,
                  fun _ => by simp, fun _ => by simp⟩
              · exact periodStart_ge _ _

/-- A payment makes no bill. -/
theorem payPendingTrafficBill_done {amount : Cents}
    (h : payPendingTrafficBillAndUnsuspend tz db k userId now = .ok (db', amount)) :
    BillingDone tz k now (db.owedRecord k userId) 0 db db' := by
  unfold payPendingTrafficBillAndUnsuspend at h
  cases hinst : db.findInstance k with
  | none => simp [hinst] at h
  | some inst =>
      simp only [hinst] at h
      split at h
      · cases h
      rename_i howned
      split at h
      · cases h
      cases hdebt : db.owedRecord k userId with
      | none => simp [hdebt] at h
      | some pending =>
          obtain ⟨hmem, howner, hstatus⟩ := owedRecord_some hdebt
          simp only [hdebt] at h
          split at h
          · cases h
          cases hpaid : db.consume userId (toUnits pending.amount) k with
          | none => simp [hpaid] at h
          | some paid =>
              obtain ⟨charged, logId⟩ := paid
              obtain ⟨log, rfl, hdebit, hinstances, hday, hrecords, hnext, -⟩ :=
                consume_some hpaid
              simp only [hpaid, Except.ok.injEq, Prod.mk.injEq] at h
              obtain ⟨rfl, -⟩ := h
              have hdebit' : Debits db charged inst.userId k (toUnits pending.amount) log :=
                (not_ne_iff.mp howned : inst.userId = userId) ▸ hdebit
              refine .pay ?_ hinst rfl hmem hstatus howner ?_ ?_
                (congrArg (Keyed.modify _ _ _) hinstances) hday
                (congrArg (Keyed.modify _ _ _) hrecords) hnext (hdebit'.of_eq rfl rfl)
              · refine ⟨fun _ => rfl, fun _ => rfl, fun _ => rfl, fun _ => rfl, fun i => ?_,
                  fun i => ?_⟩
                · by_cases hlt : pending.periodStart < db.trafficPeriodStart tz inst now
                  · simp [hlt]
                  · simp [hlt, not_lt.mp hlt]
                · by_cases hlt : pending.periodStart < db.trafficPeriodStart tz inst now
                  · simp [hlt]
                  · simp [hlt, not_lt.mp hlt]
              · exact fun _ => ⟨rfl, rfl, rfl⟩
              · rfl

end Transactions

end Incudal
