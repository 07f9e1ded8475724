/-
# `TrafficBilling` — usage-billed traffic: bills, payments, resets

An instance that is billed by traffic usage has three numbers that belong
together: the bytes used in the period, the bytes included in its plan, and
the bytes of overage that are settled.  A settlement bills the unsettled
overage, and either takes the amount from the owner's balance or leaves a
pending bill and suspends the instance; the owner can later pay the pending
bill himself; and a monthly reset puts the counters back to zero.  A pending
bill thus carries a number of bytes across time, and across resets.

Every function here is one serializable transaction of the source, so a run is
a sequence of whole transactions.  `version` checks inside a transaction
compare a row with itself and are left as the increment they come with.
-/
import Incudal.Calendar
import Incudal.Lib.Machine
import Incudal.TrafficCounters

namespace Incudal

/-! ## The rows -/

/-- `TrafficBillingRecordStatus`. -/
inductive TrafficBillingRecordStatus
  | paid | pending
deriving DecidableEq, Repr

/-- A bill: bytes and the amount they cost, in cents. -/
structure TrafficBillingRecord where
  id : ℕ
  instanceId : ℕ
  userId : ℕ
  trafficBytes : ℕ
  unitPrice : ℕ
  amount : Cents
  status : TrafficBillingRecordStatus
  periodStart : Time
  periodEnd : Time
  balanceLogId : Option ℕ
deriving DecidableEq, Repr

/-- The tables that traffic billing reads and writes.  Bills stand newest first. -/
structure TrafficBillingDb where
  instances : List TrafficInstance
  /-- `host.trafficResetDay` -/
  trafficResetDay : ℕ → ℤ
  /-- `user.balance`; `none` is a user that does not exist -/
  balance : ℕ → Option Units
  records : List TrafficBillingRecord
  balanceLogs : List BalanceLog
  nextId : ℕ

def GIB : ℕ := 1024 * 1024 * 1024

def HALF_GIB : ℕ := GIB / 2

def SUSPEND_REASON : String := "traffic_billing_insufficient_balance"

/-- `nextHour`. -/
def nextHour (t : Time) : Time := t + 60 * 60 * 1000

/-- `SettlementTrigger`. -/
inductive SettlementTrigger
  | hourly | gigabyte
deriving DecidableEq, Repr

def SettlementTrigger.threshold : SettlementTrigger → ℕ
  | .hourly => HALF_GIB
  | .gigabyte => GIB

namespace TrafficInstance

/-- The overage of the period: `max(0, used - included)`. -/
def totalOverage (inst : TrafficInstance) : ℕ :=
  inst.monthlyTrafficUsed - inst.monthlyTrafficLimit.getD 0

/-- The part of the overage that is not settled. -/
def unsettledBytes (inst : TrafficInstance) : ℕ := inst.totalOverage - inst.trafficSettledBytes

/-- Whether a settlement goes past its first check. -/
def settlementDue (inst : TrafficInstance) (now : Time) (trigger : SettlementTrigger) : Bool :=
  inst.status == .running && inst.trafficBillingMode == .usage && inst.trafficUnitPrice != 0
    && !(trigger == .hourly && inst.nextTrafficBillingAt.any (· > now))

/-- The writes of a monthly reset. -/
def resetTraffic (inst : TrafficInstance) : TrafficInstance :=
  { inst with
    monthlyTrafficUsed := 0
    trafficStatus := .normal
    trafficSettledBytes := 0
    trafficSettledCost := 0
    version := inst.version + 1 }

end TrafficInstance

/-- The cents that so many bytes cost, rounded down. -/
def trafficAmount (bytes unitPrice : ℕ) : ℕ := bytes * unitPrice / (100 * GIB)

/-- The whole bytes that so many cents pay for, rounded down. -/
def billingBytesOf (amount unitPrice : ℕ) : ℕ := amount * 100 * GIB / unitPrice

namespace TrafficBillingDb

variable (db : TrafficBillingDb)

def findInstance (id : ℕ) : Option TrafficInstance := Keyed.lookup TrafficInstance.id id db.instances

def updateInstance (id : ℕ) (f : TrafficInstance → TrafficInstance) : TrafficBillingDb :=
  { db with instances := Keyed.modify TrafficInstance.id id f db.instances }

/-- The newest pending bill of an instance. -/
def pendingRecord (instanceId : ℕ) : Option TrafficBillingRecord :=
  db.records.find? fun r => r.instanceId == instanceId && r.status == .pending

/-- The newest pending bill of an instance that a user owes. -/
def owedRecord (instanceId userId : ℕ) : Option TrafficBillingRecord :=
  db.records.find? fun r =>
    r.instanceId == instanceId && r.userId == userId && r.status == .pending

/-- The start of the calendar period of an instance's host. -/
def trafficPeriodStart (tz : Time) (inst : TrafficInstance) (now : Time) : Time :=
  (getTrafficPeriod tz (db.trafficResetDay inst.hostId) now).1

/-- The end of the last paid bill's period. -/
def lastPaidPeriodEnd (instanceId : ℕ) : Option Time :=
  ((db.records.filter fun r => r.instanceId == instanceId && r.status == .paid).map
    (·.periodEnd)).max?

/-- Whether a wallet covers an amount. -/
def covers (userId : ℕ) (amount : Units) : Bool := (db.balance userId).any (· ≥ amount)

/-- The conditional debit of a wallet with its log: `none` when the balance
does not cover the amount or there is no such user. -/
def consume (userId : ℕ) (amount : Units) (instanceId : ℕ) : Option (TrafficBillingDb × ℕ) :=
  match db.balance userId with
  | none => none
  | some balance =>
      if balance ≥ amount then
        some ({ db with
            balance := Function.update db.balance userId (some (balance - amount))
            balanceLogs := { id := db.nextId, userId, type := .consume, amount := -amount
                             balanceBefore := balance, balanceAfter := balance - amount
                             instanceId := some instanceId } :: db.balanceLogs
            nextId := db.nextId + 1 }, db.nextId)
      else none

def updateRecord (id : ℕ) (f : TrafficBillingRecord → TrafficBillingRecord) : TrafficBillingDb :=
  { db with records := Keyed.modify TrafficBillingRecord.id id f db.records }

/-- Insert a bill under the next id. -/
def createRecord (r : TrafficBillingRecord) : TrafficBillingDb :=
  { db with records := { r with id := db.nextId } :: db.records, nextId := db.nextId + 1 }

end TrafficBillingDb

/-! ## Settlement -/

/-- `SettlementResult`, less the host's connection data. -/
structure SettlementResult where
  instanceId : ℕ
  suspended : Bool
deriving DecidableEq, Repr

/-- `suspendForInsufficientBalance`: an existing debt is kept as it is, else
the bill is left pending; the instance is suspended. -/
def suspendForInsufficientBalance (db : TrafficBillingDb) (instanceId : ℕ) (now : Time)
    (pendingRecord : Option TrafficBillingRecord) (bill : TrafficBillingRecord) :
    TrafficBillingDb :=
  let billed := match pendingRecord with
    | some _ => db
    | none => db.createRecord bill
  billed.updateInstance instanceId fun i =>
    { i with
      status := .suspended
      suspendedAt := some now
      suspendReason := some SUSPEND_REASON
      nextTrafficBillingAt := none
      version := i.version + 1 }

section Settlement

variable (tz : Time)

/-- `settleInstance`. -/
def settleInstance (db : TrafficBillingDb) (instanceId : ℕ) (now : Time)
    (trigger : SettlementTrigger) : TrafficBillingDb × Option SettlementResult :=
  match db.findInstance instanceId with
  | none => (db, none)
  | some inst =>
      if !inst.settlementDue now trigger then (db, none)
      else
        let unsettledBytes := inst.unsettledBytes
        let followingRun := nextHour now
        let pendingRecord := db.pendingRecord instanceId
        let postponed := db.updateInstance instanceId
          ({ · with nextTrafficBillingAt := some followingRun })
        if unsettledBytes < trigger.threshold ∧ pendingRecord = none then
          (if trigger = .hourly then postponed else db, some { instanceId, suspended := false })
        else if unsettledBytes = 0 ∧ pendingRecord = none then
          (postponed, some { instanceId, suspended := false })
        else
          let amount : Cents := match pendingRecord with
            | some pending => pending.amount
            | none => trafficAmount unsettledBytes inst.trafficUnitPrice
          let billingBytes := match pendingRecord with
            | some pending => pending.trafficBytes
            | none => billingBytesOf amount.toNat inst.trafficUnitPrice
          if amount ≤ 0 then
            (if trigger = .hourly then postponed else db, some { instanceId, suspended := false })
          else
            let trafficPeriodStart := db.trafficPeriodStart tz inst now
            let periodStart := match db.lastPaidPeriodEnd instanceId with
              | some periodEnd =>
                  if periodEnd > trafficPeriodStart then periodEnd else trafficPeriodStart
              | none => trafficPeriodStart
            let bill : TrafficBillingRecord :=
              { id := 0, instanceId, userId := inst.userId, trafficBytes := billingBytes
                unitPrice := inst.trafficUnitPrice, amount, status := .pending
                periodStart, periodEnd := now, balanceLogId := none }
            match db.consume inst.userId (toUnits amount) instanceId with
            | none =>
                (suspendForInsufficientBalance db instanceId now pendingRecord bill,
                  some { instanceId, suspended := true })
            | some (charged, balanceLogId) =>
                let billed := match pendingRecord with
                  | some pending => charged.updateRecord pending.id fun r =>
                      { r with
                        trafficBytes := billingBytes
                        unitPrice := inst.trafficUnitPrice
                        amount
                        status := .paid
                        periodEnd := now
                        balanceLogId := some balanceLogId }
                  | none => charged.createRecord
                      { bill with status := .paid, balanceLogId := some balanceLogId }
                -- a bill of an earlier period does not count against this one
                let earlier := match pendingRecord with
                  | some pending => decide (pending.periodStart < trafficPeriodStart)
                  | none => false
                (billed.updateInstance instanceId fun i =>
                  { i with
                    trafficSettledBytes := i.trafficSettledBytes + if earlier then 0 else billingBytes
                    trafficSettledCost := i.trafficSettledCost + if earlier then 0 else amount
                    nextTrafficBillingAt :=
                      if trigger = .hourly then some followingRun
                      else some (inst.nextTrafficBillingAt.getD followingRun)
                    version := i.version + 1 },
                  some { instanceId, suspended := false })

/-- `payPendingTrafficBillAndUnsuspend`: the owner pays the pending bill. -/
def payPendingTrafficBillAndUnsuspend (db : TrafficBillingDb) (instanceId userId : ℕ)
    (now : Time) : Except String (TrafficBillingDb × Cents) :=
  match db.findInstance instanceId with
  | none => .error "INSTANCE_NOT_FOUND"
  | some inst =>
      if inst.userId ≠ userId then .error "INSTANCE_NOT_FOUND"
      else if inst.status ≠ .suspended ∨ inst.suspendReason ≠ some SUSPEND_REASON then
        .error "INSTANCE_NOT_TRAFFIC_SUSPENDED"
      else
        match db.owedRecord instanceId userId with
        | none => .error "PENDING_TRAFFIC_BILL_NOT_FOUND"
        | some pending =>
            match db.balance userId with
            | none => .error "USER_NOT_FOUND"
            | some _ =>
                match db.consume userId (toUnits pending.amount) instanceId with
                | none => .error "BALANCE_INSUFFICIENT"
                | some (charged, balanceLogId) =>
                    let billed := charged.updateRecord pending.id fun r =>
                      { r with
                        status := .paid, balanceLogId := some balanceLogId, periodEnd := now }
                    let periodStart := db.trafficPeriodStart tz inst now
                    let belongsToCurrentPeriod := decide (pending.periodStart ≥ periodStart)
                    .ok (billed.updateInstance instanceId fun i =>
                      { i with
                        status := .stopped
                        suspendedAt := none
                        suspendReason := none
                        nextTrafficBillingAt := some (nextHour now)
                        trafficSettledBytes := i.trafficSettledBytes +
                          if belongsToCurrentPeriod then pending.trafficBytes else 0
                        trafficSettledCost := i.trafficSettledCost +
                          if belongsToCurrentPeriod then pending.amount else 0
                        version := i.version + 1 }, pending.amount)

end Settlement

/-! ## The resets -/

/-- The three monthly resets: of the instances of some hosts, of every
instance, and of one instance. -/
inductive ResetPath
  | hosts (hostIds : List ℕ)
  | all
  | single (instanceId : ℕ)
deriving DecidableEq, Repr

/-- The where-clause of a reset.  Only the single-instance reset looks at the
billing mode. -/
def ResetPath.reaches (inst : TrafficInstance) : ResetPath → Bool
  | .hosts hostIds => hostIds.contains inst.hostId && inst.status != .deleted
  | .all => inst.status != .deleted
  | .single instanceId => inst.id == instanceId && inst.trafficBillingMode != .usage

/-- `resetHostInstancesMonthlyTraffic`, `resetAllInstanceMonthlyTraffic` and
`resetInstanceMonthlyTraffic`: one `updateMany` under the path's where-clause. -/
def resetMonthlyTraffic (path : ResetPath) (db : TrafficBillingDb) : TrafficBillingDb :=
  { db with
    instances := db.instances.map fun inst =>
      if path.reaches inst then inst.resetTraffic else inst }

/-- `resetHostInstancesMonthlyTraffic`. -/
def resetHostInstancesMonthlyTraffic (hostIds : List ℕ) : TrafficBillingDb → TrafficBillingDb :=
  resetMonthlyTraffic (.hosts hostIds)

/-- `resetAllInstanceMonthlyTraffic`. -/
def resetAllInstanceMonthlyTraffic : TrafficBillingDb → TrafficBillingDb :=
  resetMonthlyTraffic .all

/-- `resetInstanceMonthlyTraffic`. -/
def resetInstanceMonthlyTraffic (instanceId : ℕ) : TrafficBillingDb → TrafficBillingDb :=
  resetMonthlyTraffic (.single instanceId)

end Incudal
