/-
# `HostReservations` — instances reserve and release the resources of their host

The counters of a host and the rows of its instances are written by different
statements.  This module has the operations that reserve or release resources
one at a time: clones and retried creations reserve; failed creations,
deletions and moves to another host release; a plan change moves a reservation
from one plan to another.

NAT ports are the delicate part.  Most callers count the `portLimit` of the
instance; a clone counts the port mappings it has copied, and a move to another
host the mappings that were deleted.
-/
import Incudal.HostResources
import Incudal.Lib.Keyed
import Incudal.Lib.Machine

namespace Incudal

/-! ## Instances -/

/-- `NetworkMode`. -/
inductive NetworkMode
  | nat | nat_ipv6 | nat_ipv6_nat | ipv6_only | ipv6_nat
deriving DecidableEq, Repr

/-- The modes for which ports are reserved: all there are. -/
def NetworkMode.usesReservedNatPorts (mode : NetworkMode) : Bool :=
  mode ∈ [.nat, .nat_ipv6, .nat_ipv6_nat, .ipv6_nat, .ipv6_only]

/-- The columns of an instance that reservations go by. -/
structure HostedInstance where
  id : ℕ
  userId : ℕ
  status : InstanceStatus
  suspendReason : Option String := none
  provisioningCleanupPending : Bool := false
  cpu : ℕ
  memory : ℕ
  disk : ℕ
  networkMode : NetworkMode := .nat
  portLimit : Option ℕ
deriving DecidableEq, Repr

/-- `HOST_RESOURCE_INSTANCE_STATUSES`. -/
def InstanceStatus.allocated : InstanceStatus → Bool
  | .creating | .running | .stopped | .suspended => true
  | .error | .deleted => false

namespace HostedInstance

/-- The NAT ports that go with an instance. -/
def reservedPorts (i : HostedInstance) : ℕ :=
  if i.networkMode.usesReservedNatPorts then i.portLimit.getD 0 else 0

def resources (i : HostedInstance) : Resources := ⟨i.cpu, i.memory, i.disk, i.reservedPorts⟩

/-- The resources of an instance that holds a reservation, else nothing. -/
def held (i : HostedInstance) : Resources := if i.status.allocated then i.resources else 0

def withStatus (i : HostedInstance) (status : InstanceStatus) : HostedInstance := { i with status }

theorem resources_nonneg (i : HostedInstance) : 0 ≤ i.resources := by
  simp [Resources.le_def, resources]

theorem held_nonneg (i : HostedInstance) : 0 ≤ i.held := by
  unfold held
  split
  · exact i.resources_nonneg
  · exact le_rfl

theorem held_of_allocated {i : HostedInstance} (h : i.status.allocated = true) :
    i.held = i.resources := if_pos h

theorem held_of_not_allocated {i : HostedInstance} (h : i.status.allocated = false) :
    i.held = 0 := if_neg (by simp [h])

end HostedInstance

/-! ## Plans -/

/-- What a plan says of resources. -/
structure PlanResources where
  cpu : ℕ
  memory : ℕ
  disk : ℕ
  portLimit : ℕ
deriving DecidableEq, Repr

/-- What a change to the plan adds to the reservation of an instance. -/
def HostedInstance.planDelta (i : HostedInstance) (plan : PlanResources) : Resources :=
  ⟨plan.cpu - i.cpu, plan.memory - i.memory, plan.disk - i.disk,
    if i.networkMode.usesReservedNatPorts then plan.portLimit - (i.portLimit.getD 0 : ℤ) else 0⟩

/-- The row after `performPlanChange`. -/
def HostedInstance.changedPlan (i : HostedInstance) (plan : PlanResources) : HostedInstance :=
  { i with
      cpu := plan.cpu, memory := plan.memory, disk := plan.disk, portLimit := some plan.portLimit }

/-- A change of plan adds to what the instance holds what it adds to the counters. -/
theorem HostedInstance.resources_changedPlan (inst : HostedInstance) (plan : PlanResources) :
    (inst.changedPlan plan).resources - inst.resources = inst.planDelta plan := by
  ext
  · rfl
  · rfl
  · rfl
  · show ((inst.changedPlan plan).reservedPorts : ℤ) - (inst.reservedPorts : ℤ) = _
    by_cases hports : inst.networkMode.usesReservedNatPorts = true <;>
      simp [HostedInstance.reservedPorts, HostedInstance.changedPlan, HostedInstance.planDelta,
        hports]

/-- The checks of a plan change against the counters that it has read. -/
def HostCapacity.planFits (host : HostCapacity) (delta : Resources) : Bool :=
  !(decide (0 < delta.cpu ∧ host.cpuAllowanceMax.getD 0 < host.used.cpu + delta.cpu)) &&
  !(decide (0 < delta.memory ∧ host.memoryMax.getD 0 < host.used.memory + delta.memory)) &&
  !(decide (0 < delta.disk ∧ host.storageSize.getD 0 * 1024 < host.used.disk + delta.disk)) &&
  !(decide (0 < delta.portCount ∧ host.natPortsTotal < host.used.portCount + delta.portCount))

/-! ## Reserving and releasing -/

/-- A host with its instances.  The two histories have an instance for every
reservation and for every release. -/
structure HostWorld where
  hosts : HostTable
  instances : List HostedInstance
  reservations : List ℕ := []
  releases : List ℕ := []

namespace HostWorld

variable (w : HostWorld) (hostId : ℕ)

def find (id : ℕ) : Option HostedInstance := Keyed.lookup HostedInstance.id id w.instances

/-- A row is rewritten. -/
def rewrite (id : ℕ) (f : HostedInstance → HostedInstance) : HostWorld :=
  { w with instances := Keyed.modify HostedInstance.id id f w.instances }

/-- `reserveHostResources` for an instance. -/
def reserve (id : ℕ) (amounts : Resources) : Option HostWorld :=
  match reserveHostResources w.hosts hostId amounts with
  | .error _ => none
  | .ok hosts => some { w with hosts, reservations := w.reservations ++ [id] }

/-- `decrementHostResourceCounters` for an instance. -/
def release (id : ℕ) (amounts : Resources) : Option HostWorld :=
  match decrementHostResourceCounters w.hosts hostId amounts with
  | .error _ => none
  | .ok hosts => some { w with hosts, releases := w.releases ++ [id] }

end HostWorld

/-! ## The operations -/

/-- The callers of `rollbackResources`: the deletion routes, a move to another
host by its user, which counts the port mappings that it has deleted, and a
migration by an administrator, which gives back no ports. -/
inductive RollbackCaller
  | deletion
  | changeHost (deletedPortMappings : ℕ)
  | migrate
deriving DecidableEq, Repr

/-- The `portCount` that the caller passes. -/
def RollbackCaller.portCount (i : HostedInstance) : RollbackCaller → ℕ
  | .deletion => i.reservedPorts
  | .changeHost deletedPortMappings => deletedPortMappings
  | .migrate => 0

namespace HostWorld

variable (w : HostWorld) (hostId : ℕ)

/-- `executeCloneTask`: the row of the clone, then `reserveResources` with the
ports of the mappings that are copied.  A clone that does not complete is
removed, and released if it has been reserved. -/
def clone (sourceId newId newPortMappings : ℕ) (completes : Bool) : Option HostWorld :=
  match w.find sourceId, w.find newId with
  | some source, none =>
      let amounts : Resources := ⟨source.cpu, source.memory, source.disk, newPortMappings⟩
      match w.reserve hostId newId amounts with
      | none => some w
      | some reserved =>
          if completes then
            let new := { source with
              id := newId, status := .stopped, suspendReason := none
              provisioningCleanupPending := false }
            some { reserved with instances := w.instances ++ [new] }
          else some ((reserved.release hostId newId amounts).getD reserved)
  | _, _ => none

/-- `claimInstanceAndReserveResources`. -/
def retryProvision (id userId : ℕ) : Option HostWorld :=
  match w.find id with
  | none => none
  | some inst =>
      if inst.userId = userId ∧ inst.status = .error ∧ inst.provisioningCleanupPending = false then
        some (((w.reserve hostId id inst.resources).map fun w =>
          w.rewrite id (·.withStatus .creating)).getD w)
      else none

/-- `failCreatingInstanceAndRollbackResources`. -/
def failRetry (id : ℕ) : Option HostWorld :=
  match w.find id with
  | none => none
  | some inst =>
      if inst.status = .creating then
        some (((w.release hostId id inst.resources).map fun w =>
          w.rewrite id (·.withStatus .error)).getD w)
      else none

/-- `failCreatingInstanceAndRefund`, its resources. -/
def settleFailedProvision (id : ℕ) : Option HostWorld :=
  match w.find id with
  | none => none
  | some inst =>
      if inst.status = .creating ∧ inst.provisioningCleanupPending = true then
        some (((w.release hostId id inst.resources).map fun w =>
          w.rewrite id fun i => { i with status := .error, provisioningCleanupPending := false }).getD w)
      else none

/-- `increment` of the four counters, of either sign. -/
def increment (delta : Resources) : HostWorld :=
  { w with hosts := fun h => if h = hostId then (w.hosts h).map fun host =>
      host.withUsed (host.used + delta) else w.hosts h }

/-- `POST /:id/change-plan`: the host counters first, then Incus, then the row.
`applied` says that Incus takes the change, `charged` that `performPlanChange`
succeeds; the counters are put back when either fails. -/
def changePlan (id : ℕ) (plan : PlanResources) (applied charged : Bool) : Option HostWorld :=
  match w.find id, w.hosts hostId with
  | some inst, some host =>
      let delta := inst.planDelta plan
      if (inst.status = .running ∨ inst.status = .stopped) ∧ inst.disk ≤ plan.disk ∧
          host.planFits delta = true then
        let reserved := w.increment hostId delta
        if applied && charged then some (reserved.rewrite id (·.changedPlan plan))
        else some (reserved.increment hostId (-delta))
      else some w
  | _, _ => none

/-- `processExpiryDelete`: claim, deletion on Incus, then
`deleteExpiredInstanceAndRollbackResources`; the row is restored when either fails. -/
def deleteExpired (id : ℕ) (deletedOnIncus : Bool) : Option HostWorld :=
  match w.find id with
  | none => none
  | some inst =>
      if inst.status = .suspended ∧ inst.suspendReason = some "expired" then
        if deletedOnIncus then
          some (((w.release hostId id inst.resources).map fun w =>
            { w with instances := Keyed.erase HostedInstance.id id w.instances }).getD w)
        else some w
      else none

/-- An instance is deleted, or leaves the host: its row is no longer one of the
host's, then `rollbackResources` with what the caller counts. -/
def rollback (id : ℕ) (caller : RollbackCaller) : Option HostWorld :=
  match w.find id with
  | none => none
  | some inst =>
      if inst.status = .deleted then none
      else
        let w := w.rewrite id (·.withStatus .deleted)
        some ((w.release hostId id
          ⟨inst.cpu, inst.memory, inst.disk, caller.portCount inst⟩).getD w)

/-- A change of the row that reserves and releases nothing: an instance that is
`creating` is promoted or claimed for its cleanup; one that has been provisioned
is started, stopped, suspended or released from its suspension. -/
def setStatus (id : ℕ) (status : InstanceStatus) (suspendReason : Option String) (pending : Bool) :
    Option HostWorld :=
  match w.find id with
  | none => none
  | some inst =>
      if (inst.status = .creating ∧ (status = .creating ∨ status = .running ∨ status = .stopped)) ∨
          (inst.status.allocated ∧ inst.status ≠ .creating ∧ status.allocated ∧
            status ≠ .creating) then
        some (w.rewrite id fun i =>
          { i with status, suspendReason, provisioningCleanupPending := pending })
      else none

end HostWorld

inductive HostEvent
  | clone (sourceId newId newPortMappings : ℕ) (completes : Bool)
  | retryProvision (id userId : ℕ)
  | failRetry (id : ℕ)
  | settleFailedProvision (id : ℕ)
  | changePlan (id : ℕ) (plan : PlanResources) (applied charged : Bool)
  | deleteExpired (id : ℕ) (deletedOnIncus : Bool)
  | rollback (id : ℕ) (caller : RollbackCaller)
  | setStatus (id : ℕ) (status : InstanceStatus) (suspendReason : Option String) (pending : Bool)
deriving DecidableEq, Repr

/-- One operation, from its beginning to its end. -/
def hostStep (hostId : ℕ) (w : HostWorld) : HostEvent → Option HostWorld
  | .clone sourceId newId newPortMappings completes =>
      w.clone hostId sourceId newId newPortMappings completes
  | .retryProvision id userId => w.retryProvision hostId id userId
  | .failRetry id => w.failRetry hostId id
  | .settleFailedProvision id => w.settleFailedProvision hostId id
  | .changePlan id plan applied charged => w.changePlan hostId id plan applied charged
  | .deleteExpired id deletedOnIncus => w.deleteExpired hostId id deletedOnIncus
  | .rollback id caller => w.rollback hostId id caller
  | .setStatus id status suspendReason pending => w.setStatus id status suspendReason pending

end Incudal
