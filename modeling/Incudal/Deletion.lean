/-
# `Deletion` — the marks that a deletion leaves on the instance row

A deletion first claims the row: the status becomes `deleted` and the row says
whether money is still to be settled and how.  The remote instance is deleted
after that, the confirmation is written to the row, and a settlement clears the
marks.  A request that gives up restores the row to the status it had.
-/
import Incudal.Settlement

namespace Incudal

/-- `claimInstanceForUserDestroy` and `claimInstanceForAdminDelete`: the claim
takes the row only in the status that the request has seen. -/
def claimForDeletion (db : Db) (instanceId : ℕ) (currentStatus : InstanceStatus)
    (deletionBillingMode : Option DeletionBillingMode) (feeWaiver : Bool) : Db × Bool :=
  match db.instances instanceId with
  | none => (db, false)
  | some inst =>
      if inst.status ≠ currentStatus then (db, false)
      else
        (db.updateInstance instanceId fun i =>
          { i with
              status := .deleted, version := i.version + 1
              deletionBillingPending := deletionBillingMode.isSome, deletionRemoteDeleted := false
              deletionBillingMode, deletionRefundableValue := none
              deletionFeeWaiver := deletionBillingMode.isSome && feeWaiver }, true)

/-- The quote is written to the row. -/
def storeRefundableValue (db : Db) (instanceId : ℕ) (refundableValue : Cents) : Db :=
  db.updateInstance instanceId fun i =>
    { i with deletionRefundableValue := some refundableValue }

/-- The confirmation that a request writes after the remote deletion. -/
def confirmRemoteDeleted (db : Db) (instanceId : ℕ) : Db :=
  db.updateInstance instanceId fun i => { i with deletionRemoteDeleted := true }

/-- A row that the recovery job takes up. -/
def Instance.isPendingDeletion (inst : Instance) : Bool :=
  inst.status == .deleted && inst.deletionBillingPending

/-- The confirmation of the recovery job: only while the row is still pending. -/
def confirmPendingDeleted (db : Db) (instanceId : ℕ) : Db :=
  db.updateInstance instanceId fun i =>
    if i.isPendingDeletion then { i with deletionRemoteDeleted := true } else i

/-- `restoreClaimedInstanceStatus`, and the restores of the administrator's
route: guarded by the status alone. -/
def restoreClaimed (db : Db) (instanceId : ℕ) (originalStatus : InstanceStatus) : Db :=
  db.updateInstance instanceId fun i =>
    if i.status = .deleted then
      { i with
          status := originalStatus, version := i.version + 1
          deletionBillingPending := false, deletionRemoteDeleted := false
          deletionBillingMode := none, deletionRefundableValue := none, deletionFeeWaiver := false }
    else i

end Incudal
