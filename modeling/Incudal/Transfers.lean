/-
# `Transfers` — the transactions on the transfers of instances

A transfer is opened by the owner of an instance (`createTransferWithFee`, which
debits the fee), claimed by a worker of either party, moved through its phases
under the claim's token, and ends accepted (`executeTransferTransaction`),
rejected or cancelled (`settleTransferWithRefund`).  A failed worker rolls its
claim back, a timeout sweep takes overdue claims away, and the deletion of an
instance cancels what is still pending on it.

The transactions are serializable and the other writes are single statements,
so each is one step on the tables; one that throws (an advisory lock that is
taken included) writes nothing.
-/
import Incudal.Basic
import Incudal.Lib.Keyed
import Incudal.Lib.Machine

namespace Incudal

/-! ## Rows -/

/-- `TransferStatus`. -/
inductive TransferStatus
  | pending | processing | accepted | rejected | cancelled
deriving DecidableEq, Repr

/-- The ids that a claim freezes, for the clean-up after the transfer. -/
structure CleanupSnapshot where
  proxySiteIds : List ℕ := []
  portMappingIds : List ℕ := []
  snapshotIds : List ℕ := []
  backupIds : List ℕ := []
  snapshotPolicyIds : List ℕ := []
  backupPolicyIds : List ℕ := []
deriving DecidableEq, Repr

/-- A row of `instance_transfers`. -/
structure InstanceTransfer where
  id : ℕ
  instanceId : ℕ
  fromUserId : ℕ
  toUserId : ℕ
  status : TransferStatus := .pending
  rejectReason : Option String := none
  fee : Option Cents := none
  claimToken : Option String := none
  claimExpiresAt : Option Time := none
  phase : Option String := none
  oldIncusId : Option String := none
  newIncusId : Option String := none
  instanceVersion : Option ℕ := none
  cleanupSnapshot : Option CleanupSnapshot := none
  refundedAt : Option Time := none
  acceptedAt : Option Time := none
  rejectedAt : Option Time := none
  cancelledAt : Option Time := none
deriving DecidableEq, Repr

/-- The columns of an instance that a transfer reads or writes. -/
structure TransferInstance where
  userId : ℕ
  name : String
  incusId : String
  status : InstanceStatus
  displayOrder : ℕ := 0
  version : ℕ := 0
deriving DecidableEq, Repr

/-- The two kinds of balance log that transfers write. -/
inductive TransferLogType
  | transferFee | transferRefund
deriving DecidableEq, Repr

/-- A row of the balance log that names a transfer. -/
structure TransferLog where
  userId : ℕ
  type : TransferLogType
  amount : Units
  balanceBefore : Units
  balanceAfter : Units
  instanceId : ℕ
  transferId : ℕ
  remark : String
deriving DecidableEq, Repr

/-- The billing record of an accepted transfer; `transferId` is unique. -/
structure TransferFeeRecord where
  transferId : ℕ
  instanceId : ℕ
  userId : ℕ
  amount : Cents
  periodStart : Time
deriving DecidableEq, Repr

structure TransferDb where
  instances : ℕ → Option TransferInstance
  transfers : List InstanceTransfer
  balance : ℕ → Option Units
  balanceLogs : List TransferLog
  feeRecords : List TransferFeeRecord
  /-- the tasks of an instance that are pending or processing -/
  taskCount : ℕ → ℕ
  /-- the rows attached to an instance -/
  attached : ℕ → CleanupSnapshot
  nextId : ℕ

namespace InstanceTransfer

/-- Pending or processing. -/
def isOpen (t : InstanceTransfer) : Bool := t.status == .pending || t.status == .processing

/-- Rejected or cancelled. -/
def isReturned (t : InstanceTransfer) : Bool := t.status == .rejected || t.status == .cancelled

end InstanceTransfer

namespace TransferDb

variable (db : TransferDb)

/-- `instanceTransfer.updateMany`. -/
def updateTransfers (p : InstanceTransfer → Bool) (f : InstanceTransfer → InstanceTransfer) :
    TransferDb :=
  { db with transfers := db.transfers.map fun t => if p t then f t else t }

/-- The number of rows that `updateMany` reports. -/
def countTransfers (p : InstanceTransfer → Bool) : ℕ := db.transfers.countP p

/-- A change of a balance and its log, as the two transactions with a fee write them. -/
def moveBalance (balance : Units) (log : TransferLog) : TransferDb :=
  { db with
      balance := Function.update db.balance log.userId (some (balance + log.amount))
      balanceLogs := db.balanceLogs ++ [log] }

end TransferDb

/-! ## Opening a transfer -/

/-- The arguments of `createTransferWithFee` that it does more with than store them. -/
structure CreateTransfer where
  instanceId : ℕ
  fromUserId : ℕ
  toUserId : ℕ
  fee : Cents
  instanceName : String
deriving DecidableEq, Repr

/-- `assertCurrentInstanceOwner`. -/
def assertCurrentInstanceOwner (db : TransferDb) (instanceId fromUserId : ℕ) : Bool :=
  (db.instances instanceId).any fun inst => inst.userId == fromUserId

/-- `debitTransferFee`. -/
def debitTransferFee (db : TransferDb) (transferId : ℕ) (d : CreateTransfer) :
    Except String TransferDb :=
  match db.balance d.fromUserId with
  | none => .error "USER_NOT_FOUND"
  | some balance =>
      if balance < toUnits d.fee then .error "INSUFFICIENT_BALANCE"
      else
        .ok (db.moveBalance balance
          { userId := d.fromUserId
            type := .transferFee
            amount := -toUnits d.fee
            balanceBefore := balance
            balanceAfter := balance - toUnits d.fee
            instanceId := d.instanceId
            transferId
            remark := "转移实例 \"" ++ d.instanceName ++ "\" 手续费" })

/-- `createTransferWithFee`: its loop ends with the first transaction, which
returns a result or throws. -/
def createTransferWithFee (db : TransferDb) (d : CreateTransfer) : Except String TransferDb :=
  if !assertCurrentInstanceOwner db d.instanceId d.fromUserId then
    .error "TRANSFER_INSTANCE_OWNER_CHANGED"
  else if db.transfers.any fun t => t.instanceId == d.instanceId && t.isOpen then
    .error "TRANSFER_ALREADY_PENDING"
  else
    let created : TransferDb :=
      { db with
          transfers := db.transfers ++
            [{ id := db.nextId
               instanceId := d.instanceId
               fromUserId := d.fromUserId
               toUserId := d.toUserId
               fee := if d.fee > 0 then some d.fee else none }]
          nextId := db.nextId + 1 }
    if d.fee > 0 then debitTransferFee created db.nextId d else .ok created

/-! ## Claims -/

/-- `actorRole`. -/
inductive ActorRole
  | sender | receiver
deriving DecidableEq, Repr

/-- The party that may act in a role. -/
def InstanceTransfer.actedBy (t : InstanceTransfer) (actorUserId : ℕ) : ActorRole → Bool
  | .receiver => t.toUserId == actorUserId
  | .sender => t.fromUserId == actorUserId

structure ClaimTransfer where
  transferId : ℕ
  instanceId : ℕ
  actorUserId : ℕ
  actorRole : ActorRole
  claimToken : String
  newIncusId : String
  leaseUntil : Time
deriving DecidableEq, Repr

/-- `claimTransferTransaction`; tokens are unique over the table. -/
def claimTransferTransaction (db : TransferDb) (d : ClaimTransfer) : Except String TransferDb :=
  if db.taskCount d.instanceId > 0 then .error "TRANSFER_INSTANCE_TASK_ACTIVE"
  else
    match db.instances d.instanceId with
    | none => .error "TRANSFER_INSTANCE_OWNER_CHANGED"
    | some inst =>
        if inst.status == .deleted then .error "TRANSFER_INSTANCE_OWNER_CHANGED"
        else
          let chosen := fun t : InstanceTransfer =>
            t.id == d.transferId && t.instanceId == d.instanceId && t.status == .pending
              && t.actedBy d.actorUserId d.actorRole
          if db.countTransfers chosen ≠ 1 then .error "TRANSFER_NOT_PENDING"
          else if db.transfers.any fun t => t.claimToken == some d.claimToken then
            .error "Unique constraint failed on the fields: (claim_token)"
          else
            .ok (db.updateTransfers chosen fun t =>
              { t with
                  status := .processing
                  claimToken := some d.claimToken
                  claimExpiresAt := some d.leaseUntil
                  phase := some "claimed"
                  oldIncusId := some inst.incusId
                  newIncusId := some d.newIncusId
                  instanceVersion := some inst.version
                  cleanupSnapshot := some (db.attached d.instanceId) })

/-- The rows that a worker's later writes address: its own claim, as long as it stands. -/
def InstanceTransfer.heldBy (t : InstanceTransfer) (transferId : ℕ) (claimToken : String) : Bool :=
  t.id == transferId && t.status == .processing && t.claimToken == some claimToken

/-- `markTransferPhase`. -/
def markTransferPhase (db : TransferDb) (transferId : ℕ) (claimToken phase : String) :
    TransferDb :=
  db.updateTransfers (·.heldBy transferId claimToken) ({ · with phase := some phase })

/-- `rollbackProcessingTransfer`. -/
def rollbackProcessingTransfer (db : TransferDb) (transferId : ℕ) (claimToken : String) :
    TransferDb :=
  db.updateTransfers (·.heldBy transferId claimToken)
    ({ · with
        status := .pending
        claimToken := none
        claimExpiresAt := none
        phase := none
        oldIncusId := none
        newIncusId := none
        instanceVersion := none })

/-- `cleanupTimeoutTransfers`. -/
def cleanupTimeoutTransfers (db : TransferDb) (now : Time) : TransferDb :=
  db.updateTransfers
    (fun t => t.status == .processing && t.claimExpiresAt.any (· < now) && t.claimToken.isSome)
    ({ · with status := .pending, claimToken := none, claimExpiresAt := none, phase := none })

/-! ## The ends of a transfer -/

/-- The outcomes that return the fee. -/
inductive TransferOutcome
  | rejected (reason : Option String) | cancelled
deriving DecidableEq, Repr

/-- Who may bring an outcome about. -/
def TransferOutcome.actorRole : TransferOutcome → ActorRole
  | .rejected _ => .receiver
  | .cancelled => .sender

/-- The write of an outcome. -/
def InstanceTransfer.settle (now : Time) (outcome : TransferOutcome) (t : InstanceTransfer) :
    InstanceTransfer :=
  let refundedAt := if t.fee.any (· > 0) then some now else t.refundedAt
  match outcome with
  | .rejected reason =>
      { t with status := .rejected, rejectedAt := some now, rejectReason := reason, refundedAt }
  | .cancelled => { t with status := .cancelled, cancelledAt := some now, refundedAt }

/-- The refund of a fee to the sender. -/
def refundFee (db : TransferDb) (t : InstanceTransfer) (outcome : TransferOutcome)
    (instanceName : String) : Except String TransferDb :=
  match t.fee with
  | none => .ok db
  | some fee =>
      if fee > 0 ∧ t.refundedAt = none then
        match db.balance t.fromUserId with
        | none => .error "USER_NOT_FOUND"
        | some balance =>
            let verb := match outcome with
              | .rejected _ => "拒绝"
              | .cancelled => "取消"
            .ok (db.moveBalance balance
              { userId := t.fromUserId
                type := .transferRefund
                amount := toUnits fee
                balanceBefore := balance
                balanceAfter := balance + toUnits fee
                instanceId := t.instanceId
                transferId := t.id
                remark := verb ++ "转移实例 \"" ++ instanceName ++ "\"，退还手续费" })
      else .ok db

/-- `settleTransferWithRefund`; `none` is its answer `false`. -/
def settleTransferWithRefund (db : TransferDb) (transferId actorUserId : ℕ)
    (outcome : TransferOutcome) (now : Time) : Except String (Option TransferDb) :=
  let chosen := fun t : InstanceTransfer =>
    t.id == transferId && t.status == .pending && t.actedBy actorUserId outcome.actorRole
  match db.transfers.find? chosen with
  | none => .ok none
  | some t =>
      let instanceName := ((db.instances t.instanceId).map (·.name)).getD ""
      match refundFee db t outcome instanceName with
      | .error e => .error e
      | .ok refunded =>
          if refunded.countTransfers chosen ≠ 1 then .error "TRANSFER_NOT_PENDING"
          else .ok (some (refunded.updateTransfers chosen (·.settle now outcome)))

structure TransferExecutionData where
  transferId : ℕ
  instanceId : ℕ
  fromUserId : ℕ
  toUserId : ℕ
  newInstanceName : String
  newIncusId : String
  oldIncusId : String
  instanceVersion : ℕ
  claimToken : String
deriving DecidableEq, Repr

/-- The rows that an execution accepts as its transfer. -/
def InstanceTransfer.executedBy (t : InstanceTransfer) (d : TransferExecutionData) : Bool :=
  t.heldBy d.transferId d.claimToken && t.instanceId == d.instanceId
    && t.fromUserId == d.fromUserId && t.toUserId == d.toUserId
    && t.oldIncusId == some d.oldIncusId && t.newIncusId == some d.newIncusId
    && t.instanceVersion == some d.instanceVersion

/-- The instance as the execution expects it. -/
def TransferInstance.matches (inst : TransferInstance) (d : TransferExecutionData) : Bool :=
  inst.userId == d.fromUserId && inst.incusId == d.oldIncusId && inst.version == d.instanceVersion

/-- The instance in the hands of the receiver. -/
def TransferInstance.handOver (inst : TransferInstance) (d : TransferExecutionData) :
    TransferInstance :=
  { inst with
      userId := d.toUserId
      name := d.newInstanceName
      incusId := d.newIncusId
      displayOrder := 0
      version := inst.version + 1 }

/-- The write of an acceptance. -/
def InstanceTransfer.accept (now : Time) (t : InstanceTransfer) : InstanceTransfer :=
  { t with
      status := .accepted
      acceptedAt := some now
      phase := some "completed"
      claimExpiresAt := none }

/-- `executeTransferTransaction`. -/
def executeTransferTransaction (db : TransferDb) (d : TransferExecutionData) (now : Time) :
    Except String TransferDb :=
  match db.transfers.find? (·.executedBy d) with
  | none => .error "TRANSFER_EXECUTION_CONFLICT"
  | some transfer =>
      match db.instances d.instanceId with
      | none => .error "TRANSFER_INSTANCE_OWNER_CHANGED"
      | some inst =>
          if !inst.matches d then .error "TRANSFER_INSTANCE_OWNER_CHANGED"
          else
            let moved : TransferDb :=
              { db with
                  instances := Function.update db.instances d.instanceId (some (inst.handOver d)) }
            let held := fun t : InstanceTransfer => t.heldBy d.transferId d.claimToken
            if moved.countTransfers held ≠ 1 then .error "TRANSFER_EXECUTION_CONFLICT"
            else
              let accepted := moved.updateTransfers held (·.accept now)
              match transfer.fee with
              | none => .ok accepted
              | some fee =>
                  if fee > 0 then
                    if db.feeRecords.any fun r => r.transferId == d.transferId then
                      .error "Unique constraint failed on the fields: (transfer_id)"
                    else
                      .ok { accepted with
                              feeRecords := db.feeRecords ++
                                [{ transferId := d.transferId
                                   instanceId := d.instanceId
                                   userId := transfer.fromUserId
                                   amount := fee
                                   periodStart := now }] }
                  else .ok accepted

/-- What every deletion of an instance does to its transfers: the pending ones
are cancelled, and nothing else is written. -/
def cancelPendingTransfers (db : TransferDb) (instanceId : ℕ) (now : Time) : TransferDb :=
  db.updateTransfers (fun t => t.instanceId == instanceId && t.status == .pending)
    ({ · with status := .cancelled, cancelledAt := some now })

end Incudal
