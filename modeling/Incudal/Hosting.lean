/-
# `Hosting` — the income of host owners

A charge for an instance on a user's host is income of the host's owner: a
frozen row of the hosting log, which an unfreezing job later moves to the
owner's available hosting balance.  A refund takes income back
(`deductHostingBalance`): first from the frozen rows of the instance, then from
the available hosting balance, then from the owner's panel balance.

`HostingFrame` says what such a deduction can touch: users, the hosting log
and the balance log.  What a refund path writes besides is its own.
-/
import Incudal.BillingCalc
import Mathlib.Tactic.Linarith

namespace Incudal

/-! ## Whose income it is -/

/-- `resolveHostedIncomeOwner`: the host's owner unless an administrator owns
the host; with the fallback, then, whoever earned the instance's last income. -/
def resolveHostedIncomeOwner (db : Db) (hostId : ℕ) (instanceId : Option ℕ)
    (allowHistoricalFallback : Bool) : Option ℕ :=
  match db.hosts hostId with
  | none => none
  | some host =>
      match db.users host.userId with
      | none => none
      | some owner =>
          if owner.role ≠ .admin then some host.userId
          else
            match allowHistoricalFallback, instanceId with
            | true, some instanceId =>
                match (db.hostingLogs.filter fun log =>
                    log.relatedId == some instanceId && log.type == .income).getLast? with
                | none => none
                | some latestIncomeLog =>
                    match db.users latestIncomeLog.userId with
                    | some historicalOwner =>
                        if historicalOwner.role = .admin then none
                        else some latestIncomeLog.userId
                    | none => none
            | _, _ => none

/-- The income of a month is frozen for 31 days. -/
def freezeMs : Time := 31 * 24 * 60 * 60 * 1000

/-- `recordHostingIncome`. -/
def recordHostingIncome (db : Db) (e : Env) (hostOwnerId : ℕ) (amount : Cents) (instanceId : ℕ) :
    Db :=
  db.createHostingLog
    { id := 0, userId := hostOwnerId, type := .income, amount := toUnits amount, frozen := true
      unfreezeAt := some (e.now + freezeMs), relatedId := some instanceId, createdAt := e.now }

/-- `processHostingIncome`. -/
def processHostingIncome (db : Db) (e : Env) (hostId : ℕ) (amount : Cents) (instanceId : ℕ) : Db :=
  match resolveHostedIncomeOwner db hostId none false with
  | none => db
  | some hostOwnerId => recordHostingIncome db e hostOwnerId amount instanceId

/-! ## Taking income back -/

/-- A frozen income row of an owner for an instance. -/
def HostingBalanceLog.isFrozenIncome (owner instanceId : ℕ) (log : HostingBalanceLog) : Bool :=
  log.userId == owner && log.relatedId == some instanceId && log.type == .income && log.frozen

/-- The first step of a deduction: frozen rows in the order of the table are
used up, or the last one shortened, until nothing remains to be deducted. -/
def deductFrozen (owner instanceId : ℕ) :
    Units → List HostingBalanceLog → List HostingBalanceLog × Units
  | remainingToDeduct, [] => ([], remainingToDeduct)
  | remainingToDeduct, log :: logs =>
      if log.isFrozenIncome owner instanceId = true ∧ 0 < remainingToDeduct then
        let deductFromThis := min log.amount remainingToDeduct
        let (logs', remaining) := deductFrozen owner instanceId (remainingToDeduct - deductFromThis) logs
        if deductFromThis ≥ log.amount then (logs', remaining)
        else ({ log with amount := log.amount - deductFromThis } :: logs', remaining)
      else
        let (logs', remaining) := deductFrozen owner instanceId remainingToDeduct logs
        (log :: logs', remaining)

/-- `HostingBalanceDeductionResult`. -/
structure HostingBalanceDeductionResult where
  hostOwnerId : ℕ
  fromFrozen : Units
  fromAvailable : Units
  fromBalance : Units
deriving DecidableEq, Repr

/-- The second step: what the available hosting balance gives. -/
def deductAvailable (db : Db) (owner : ℕ) (remainingToDeduct : Units) : Db × Units :=
  let available := ((db.users owner).map (·.hostingBalance)).getD 0
  let deductFromAvailable := min available remainingToDeduct
  if 0 < deductFromAvailable then
    (db.updateUser owner fun u => { u with hostingBalance := u.hostingBalance - deductFromAvailable },
      deductFromAvailable)
  else (db, 0)

/-- The third step: what the panel balance gives, with its log. -/
def deductPanel (db : Db) (owner instanceId : ℕ) (remainingToDeduct : Units) : Db × Units :=
  let available := ((db.users owner).map (·.balance)).getD 0
  let deductFromBalance := min available remainingToDeduct
  if 0 < deductFromBalance then
    let db := db.updateUser owner fun u => { u with balance := u.balance - deductFromBalance }
    let balanceAfter := available - deductFromBalance
    let (db, _) := db.createBalanceLog
      { id := 0, userId := owner, type := .hostingDeduction, amount := -deductFromBalance
        balanceBefore := roundUnits (balanceAfter + deductFromBalance), balanceAfter
        instanceId := some instanceId }
    (db, deductFromBalance)
  else (db, 0)

/-- `deductHostingBalance`. -/
def deductHostingBalance (db : Db) (e : Env) (hostId : ℕ) (amount : Cents) (instanceId : ℕ) :
    Except String (Db × Option HostingBalanceDeductionResult) :=
  match resolveHostedIncomeOwner db hostId (some instanceId) true with
  | none => .ok (db, none)
  | some owner =>
      if e.hostingLocked owner then .error "托管余额正在处理，请稍后重试"
      else
        let (hostingLogs, remaining) := deductFrozen owner instanceId (toUnits amount) db.hostingLogs
        let fromFrozen := toUnits amount - remaining
        let db := { db with hostingLogs }
        let (db, fromAvailable) :=
          if 0 < remaining then deductAvailable db owner remaining else (db, 0)
        let (db, fromBalance) :=
          if 0 < remaining - fromAvailable then
            deductPanel db owner instanceId (remaining - fromAvailable)
          else (db, 0)
        let totalDeducted := fromFrozen + fromAvailable + fromBalance
        let db :=
          if 0 < totalDeducted then
            db.createHostingLog
              { id := 0, userId := owner, type := .deduction, amount := -totalDeducted
                frozen := false, relatedId := some instanceId, createdAt := e.now }
          else db
        .ok (db, some { hostOwnerId := owner, fromFrozen, fromAvailable, fromBalance })

end Incudal
