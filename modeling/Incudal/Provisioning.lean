/-
# `Provisioning` — an instance is created, or cleaned up and refunded

A provisioner (`createInstanceAsync`) creates the instance on Incus and
promotes the row to `running`.  When something goes wrong, or when the row has
been `creating` for ten minutes, a cleanup run
(`cleanupAndSettleFailedProvision`) finds out what Incus has, claims the row,
looks once more, deletes and refunds.  Every database transaction and every
request to Incus is a step of its own; between two of them anything may happen,
on Incus too.

A worker is one call of either function.  `history` records what the steps have
done that cannot be taken back.
-/
import Incudal.HostResources
import Incudal.Lib.Machine
import Incudal.Settlement

namespace Incudal

/-! ## Incus -/

/-- The status of an instance on Incus, as `waitForProvisioningInstanceResolution`
tells them apart. -/
inductive IncusStatus
  | running | stopped | frozen | error | unset | transitional
deriving DecidableEq, Repr

/-- The status of a provisioned instance. -/
inductive ProvisionedStatus
  | running | stopped
deriving DecidableEq, Repr

def ProvisionedStatus.toInstanceStatus : ProvisionedStatus → InstanceStatus
  | .running => .running
  | .stopped => .stopped

/-- `ProvisioningInstanceResolution`. -/
inductive ProvisioningInstanceResolution
  | absent
  | present (status : ProvisionedStatus)
  | failed
deriving DecidableEq, Repr

/-- What an instance that exists resolves to; a transitional status is given time. -/
def IncusStatus.resolution : IncusStatus → Option ProvisioningInstanceResolution
  | .running => some (.present .running)
  | .stopped | .frozen => some (.present .stopped)
  | .error | .unset => some .failed
  | .transitional => none

/-- The next request of `waitForProvisioningInstanceResolution`: for the
instance, or, when that was not found, for the operations under way on it. -/
inductive Probe
  | ofInstance | operations
deriving DecidableEq, Repr

/-- Where a call of `ensureInstanceDeleted` is. -/
inductive DeleteStage
  | resolve (probe : Probe)
  | stop | delete | confirm
deriving DecidableEq, Repr

/-! ## Workers -/

/-- The next step of a worker. -/
inductive ProvisionStage
  /- `createInstanceAsync` -/
  | createInstance | waitForCreatedInstance | startInstance | markRunning
  | lateSuccess | announce | lateFailure
  | lateDelete (stage : DeleteStage)
  /- the timeout worker has selected the row -/
  | selected
  /- `cleanupAndSettleFailedProvision` -/
  | resolve (probe : Probe)
  | recover (status : ProvisionedStatus)
  | claim
  | resolveAgain (probe : Probe)
  | recoverAgain (status : ProvisionedStatus)
  | ensureDeleted (stage : DeleteStage)
  | settle
deriving DecidableEq, Repr

structure ProvisionWorker where
  /-- a call of `createInstanceAsync`; else of the timeout worker -/
  provisioner : Bool
  /-- set by the timeout worker only -/
  reclaimPendingBefore : Option Time := none
  stage : ProvisionStage
deriving DecidableEq, Repr

/-- What a step does that cannot be taken back: the row is promoted, the failed
provision is settled, the instance is deleted on Incus. -/
inductive ProvisionEffect
  | promoted
  | settled (refundAmount : Units)
  | deleted
deriving DecidableEq, Repr

structure ProvisionWorld where
  db : Db
  hosts : HostTable
  env : Env
  /-- `updatedAt` of the row -/
  updatedAt : Time
  incus : Option IncusStatus := none
  /-- Incus has operations under way that name the instance -/
  operations : Bool := false
  workers : List ProvisionWorker
  history : List ProvisionEffect := []

/-- `CREATE_TIMEOUT_MS`. -/
def createTimeoutMs : Time := 10 * 60 * 1000

def ProvisionWorld.row (w : ProvisionWorld) (p : Reservation) : Option Instance :=
  w.db.instances p.instanceId

/-! ## Steps on the row -/

/-- The promotion at the end of `createInstanceAsync`. -/
def markRunning (db : Db) (instanceId : ℕ) : Db × Bool :=
  match db.instances instanceId with
  | none => (db, false)
  | some inst =>
      if inst.status = .creating ∧ inst.provisioningCleanupPending = false then
        (db.updateInstance instanceId fun i => { i with status := .running }, true)
      else (db, false)

/-- `markCreatingInstanceProvisioned`: it does not look at the cleanup flag. -/
def markCreatingInstanceProvisioned (db : Db) (instanceId : ℕ) (status : ProvisionedStatus) :
    Db × Bool :=
  match db.instances instanceId with
  | none => (db, false)
  | some inst =>
      match inst.status with
      | .running | .stopped => (db, true)
      | .creating =>
          (db.updateInstance instanceId fun i =>
            { i with status := status.toInstanceStatus, provisioningCleanupPending := false
                     version := i.version + 1 }, true)
      | _ => (db, false)

/-- The row has been written. -/
def ProvisionWorld.wrote (w : ProvisionWorld) (db : Db) (effects : List ProvisionEffect) :
    ProvisionWorld :=
  { w with db, updatedAt := w.env.now, history := w.history ++ effects }

/-- `markCreatingInstanceProvisioned`, which promotes a row that is `creating`. -/
def ProvisionWorld.recover (w : ProvisionWorld) (p : Reservation) (status : ProvisionedStatus) :
    ProvisionWorld × Bool :=
  let (db, recovered) := markCreatingInstanceProvisioned w.db p.instanceId status
  if (w.row p).map (·.status) = some .creating then (w.wrote db [.promoted], recovered)
  else (w, recovered)

/-- `failCreatingInstanceAndRefund` with its rollback of the resources, one
transaction: `none` when it throws. -/
def ProvisionWorld.settle (w : ProvisionWorld) (p : Reservation) : Option ProvisionWorld :=
  match failCreatingInstanceAndRefund w.db w.env p.instanceId with
  | .error _ => none
  | .ok (_, none) => some w
  | .ok (db, some refundAmount) =>
      match decrementHostResourceCounters w.hosts p.hostId p.resources with
      | .error _ => none
      | .ok hosts => some { w.wrote db [.settled refundAmount] with hosts }

/-! ## Steps on Incus -/

/-- One request of `waitForProvisioningInstanceResolution`: the next request, or
the resolution. -/
def ProvisionWorld.probe (w : ProvisionWorld) : Probe → Probe ⊕ ProvisioningInstanceResolution
  | .ofInstance =>
      match w.incus with
      | none => .inl .operations
      | some status =>
          match status.resolution with
          | some resolution => .inr resolution
          | none => .inl .ofInstance
  | .operations => if w.operations then .inl .ofInstance else .inr .absent

/-- One request of `ensureInstanceDeleted`; no stage is left when it has returned. -/
def ProvisionWorld.ensureInstanceDeleted (w : ProvisionWorld) :
    DeleteStage → ProvisionWorld × Option DeleteStage
  | .resolve probe =>
      match w.probe probe with
      | .inl probe => (w, some (.resolve probe))
      | .inr .absent => (w, none)
      | .inr _ => (w, some .stop)
  | .stop => ({ w with incus := w.incus.map fun _ => .stopped }, some .delete)
  | .delete =>
      match w.incus with
      | none => (w, some .confirm)
      | some _ => ({ w with incus := none, history := w.history ++ [.deleted] }, some .confirm)
  | .confirm =>
      match w.incus with
      | none => (w, none)
      | some _ => (w, some .confirm)

/-! ## Steps of a worker -/

/-- After a cleanup run that has not claimed the row: the provisioner looks at
the row, the timeout worker goes on to the next instance. -/
def ProvisionWorker.unclaimed (k : ProvisionWorker) : Option ProvisionStage :=
  if k.provisioner then some .lateFailure else none

/-- The next step of a worker and where it goes from there; `none` as the stage
ends it.  A step that cannot succeed is not enabled (see `ProvisionWorker.caught`), nor
is the worker that has yet to `begin`. -/
def ProvisionWorld.advance (w : ProvisionWorld) (p : Reservation) (k : ProvisionWorker) :
    Option (ProvisionWorld × Option ProvisionStage) :=
  match k.stage with
  | .createInstance =>
      match w.incus with
      | none => some ({ w with incus := some .stopped }, some .waitForCreatedInstance)
      | some _ => none
  | .waitForCreatedInstance =>
      match w.incus with
      | some .running => some (w, some .markRunning)
      | some .stopped => some (w, some .startInstance)
      | some .error => none
      | _ => some (w, some .waitForCreatedInstance)
  | .startInstance =>
      match w.incus with
      | none => none
      | some _ => some ({ w with incus := some .running }, some .markRunning)
  | .markRunning =>
      match markRunning w.db p.instanceId with
      | (db, true) => some (w.wrote db [.promoted], some .announce)
      | (_, false) => some (w, some .lateSuccess)
  | .lateSuccess =>
      -- everything but `running` is taken for a row that is not provisioned
      if (w.row p).map (·.status) = some .running then some (w, none)
      else some (w, some (.lateDelete (.resolve .ofInstance)))
  | .announce => some (w, none)
  | .lateFailure =>
      match w.row p with
      | none => some (w, none)
      | some inst =>
          if inst.status = .error ∨
              (inst.status = .creating ∧ inst.provisioningCleanupPending = true) then
            some (w, some (.lateDelete (.resolve .ofInstance)))
          else some (w, none)
  | .lateDelete stage =>
      let (w, next) := w.ensureInstanceDeleted stage
      some (w, next.map .lateDelete)
  | .selected => none
  | .resolve probe =>
      match w.probe probe with
      | .inl probe => some (w, some (.resolve probe))
      | .inr (.present status) => some (w, some (.recover status))
      | .inr _ => some (w, some .claim)
  | .recover status =>
      let (w, recovered) := w.recover p status
      some (w, if recovered then none else some .claim)
  | .claim =>
      let reclaim := match k.reclaimPendingBefore with
        | none => false
        | some limit => decide (w.updatedAt < limit)
      match claimCreatingInstanceForCleanup w.db p.instanceId reclaim with
      | (db, true) => some (w.wrote db [], some (.resolveAgain .ofInstance))
      | (_, false) => some (w, k.unclaimed)
  | .resolveAgain probe =>
      match w.probe probe with
      | .inl probe => some (w, some (.resolveAgain probe))
      | .inr (.present status) => some (w, some (.recoverAgain status))
      | .inr _ => some (w, some (.ensureDeleted (.resolve .ofInstance)))
  | .recoverAgain status => some ((w.recover p status).1, none)
  | .ensureDeleted stage =>
      let (w, next) := w.ensureInstanceDeleted stage
      some (w, some (match next with
        | some stage => .ensureDeleted stage
        | none => .settle))
  | .settle => (w.settle p).map fun w => (w, none)

/-- Where a worker goes when its step throws. -/
def ProvisionWorker.caught (k : ProvisionWorker) : Option ProvisionStage :=
  match k.stage with
  | .createInstance | .waitForCreatedInstance | .startInstance | .markRunning | .lateSuccess
  | .announce => some (.resolve .ofInstance)
  | .resolve _ | .recover _ | .claim => k.unclaimed
  | .lateFailure | .lateDelete _ | .selected | .resolveAgain _ | .recoverAgain _
  | .ensureDeleted _ | .settle => none

/-- The worker at a place of the list goes to another stage or ends. -/
def ProvisionWorld.goto (w : ProvisionWorld) (i : ℕ) (k : ProvisionWorker) :
    Option ProvisionStage → ProvisionWorld
  | none => { w with workers := w.workers.eraseIdx i }
  | some stage => { w with workers := w.workers.set i { k with stage } }

/-! ## The system -/

inductive ProvisionEvent
  | tick (env : Env)
  /-- something happens on Incus -/
  | incusChanges (incus : Option IncusStatus) (operations : Bool)
  /-- a start, stop or suspension of the promoted instance -/
  | operate (status : InstanceStatus)
  /-- the timeout worker finds the row in `getStuckCreatingInstances` -/
  | selectStuck
  /-- the timeout worker comes to the row -/
  | begin (i : ℕ)
  | step (i : ℕ)
  | fail (i : ℕ)

/-- The statuses of an instance that has been provisioned. -/
def InstanceStatus.provisioned : InstanceStatus → Bool
  | .running | .stopped | .suspended => true
  | _ => false

def provisionStep (p : Reservation) (w : ProvisionWorld) : ProvisionEvent → Option ProvisionWorld
  | .tick env => if w.env.now ≤ env.now then some { w with env } else none
  | .incusChanges incus operations => some { w with incus, operations }
  | .operate status =>
      match w.row p with
      | none => none
      | some inst =>
          if inst.status.provisioned && status.provisioned then
            some (w.wrote (w.db.updateInstance p.instanceId fun i =>
              { i with status, version := i.version + 1 }) [])
          else none
  | .selectStuck =>
      match w.row p with
      | none => none
      | some inst =>
          if inst.status = .creating ∧ w.updatedAt < w.env.now - createTimeoutMs then
            some { w with workers := w.workers ++ [{ provisioner := false, stage := .selected }] }
          else none
  | .begin i =>
      match w.workers[i]? with
      | none => none
      | some k =>
          if k.stage = .selected then
            some (w.goto i { k with reclaimPendingBefore := some (w.env.now - createTimeoutMs) }
              (some (.resolve .ofInstance)))
          else none
  | .step i =>
      match w.workers[i]? with
      | none => none
      | some k => (w.advance p k).map fun (w, next) => w.goto i k next
  | .fail i =>
      match w.workers[i]? with
      | none => none
      | some k => some (w.goto i k k.caught)

/-- A package or hourly instance has been bought and its provisioner is about to start. -/
structure ProvisionWorld.Fresh (w : ProvisionWorld) (p : Reservation) : Prop where
  row : ∃ inst, w.row p = some inst ∧ inst.status = .creating ∧
    inst.provisioningCleanupPending = false
  workers : w.workers = [{ provisioner := true, stage := .createInstance }]
  history : w.history = []

end Incudal
