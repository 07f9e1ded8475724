/-
# `HostOperations` — purchases, plan changes, deliveries and deletions side by side

Four operations reserve or release resources of a host, and each of them goes
to the database more than once.  A plan change and the delivery of a redeem code
raise the counters first and write the row of the instance later; a deletion
takes the row out of the sums first, releases later, and at its end overwrites
the counters with sums that it has read in between.  A purchase is one
transaction, but it overwrites the counters too: with the sum over the rows and
what it adds.

A step is one statement of one operation, so that a run is an interleaving.
`Operation.outstanding` says what an operation has in the counters that the rows
do not show.
-/
import Incudal.HostReservations

namespace Incudal

/-! ## Operations in progress -/

/-- `POST /:id/change-plan`, by the statement that comes next. -/
inductive PlanChangeStage
  | begun
  /-- the counters have been read, and the change fits -/
  | checked (used : Resources)
  | reserved
  | appliedToIncus
  | undoing
deriving DecidableEq, Repr

/-- The codes that add to an instance: `c`, `r` and `d`. -/
inductive RedeemCodeType
  | cpu | memory | disk
deriving DecidableEq, Repr

/-- `POST /redeem`, by the statement that comes next. -/
inductive RedeemStage
  | begun
  | claimed
  | hostAdjusted
  | remoteApplied
  /-- the row could not be written -/
  | unwritten
  | undoing
deriving DecidableEq, Repr

/-- `POST /:id/destroy`, by the statement that comes next.  `held` is what the
instance had reserved when it was claimed, `surplus` what is left of that after
the release. -/
inductive DestroyStage
  | begun
  | claimed (held : Resources)
  | incusDeleted (held : Resources)
  | released (surplus : Resources)
  | summed (surplus sums : Resources)
  | counted (surplus sums : Resources) (actualPortsUsed : ℤ)
  | overwritten (surplusPorts actualPortsUsed : ℤ)
deriving DecidableEq, Repr

inductive Work
  | changePlan (plan : PlanResources) (stage : PlanChangeStage)
  | redeem (codeType : RedeemCodeType) (codeValue : ℕ) (stage : RedeemStage)
  | destroy (stage : DestroyStage)
deriving DecidableEq, Repr

/-- A request in progress, with the instance as it has read it. -/
structure Operation where
  id : ℕ
  read : HostedInstance
  version : ℕ
  work : Work
deriving DecidableEq, Repr

/-- What a code adds to the counters. -/
def RedeemCodeType.amount (codeType : RedeemCodeType) (codeValue : ℕ) : Resources :=
  match codeType with
  | .cpu => { cpu := codeValue, memory := 0, disk := 0 }
  | .memory => { cpu := 0, memory := codeValue, disk := 0 }
  | .disk => { cpu := 0, memory := 0, disk := codeValue }

/-- `updateInstanceResources`, with the value that a code leads to from the row
that has been read. -/
def RedeemCodeType.deliver (codeType : RedeemCodeType) (codeValue : ℕ)
    (read row : HostedInstance) : HostedInstance :=
  match codeType with
  | .cpu => { row with cpu := read.cpu + codeValue }
  | .memory => { row with memory := read.memory + codeValue }
  | .disk => { row with disk := read.disk + codeValue }

/-- What the operation has in the counters that the rows do not show. -/
def Operation.outstanding (op : Operation) : Resources :=
  match op.work with
  | .changePlan plan stage =>
      match stage with
      | .begun | .checked _ => 0
      | .reserved | .appliedToIncus | .undoing => op.read.planDelta plan
  | .redeem codeType codeValue stage =>
      match stage with
      | .begun | .claimed => 0
      | .hostAdjusted | .remoteApplied | .unwritten | .undoing => codeType.amount codeValue
  | .destroy stage =>
      match stage with
      | .begun => 0
      | .claimed held | .incusDeleted held => held
      | .released surplus | .summed surplus _ | .counted surplus _ _ => surplus
      | .overwritten surplusPorts _ => ⟨0, 0, 0, surplusPorts⟩

def Work.isRedeem : Work → Bool
  | .redeem .. => true
  | _ => false

/-! ## The host -/

/-- An instance and the requests in progress on it. -/
structure HostedSlot where
  row : HostedInstance
  version : ℕ := 0
  operations : List Operation := []
deriving DecidableEq, Repr

/-- The columns by which a host is selected. -/
structure HostSelection where
  id : ℕ
  userId : ℕ
  online : Bool := true
  hourlyBillingEnabled : Bool := false
  tags : List String := []
deriving DecidableEq, Repr

/-- A host that operations share.  The list has the instances whose release was
refused; `granted` is what codes have added to the counters since CPU or memory
was last checked against its limit. -/
structure SharedHost where
  selection : HostSelection
  host : HostCapacity
  slots : List HostedSlot
  refusedReleases : List ℕ := []
  granted : Resources := 0
deriving DecidableEq, Repr

namespace HostedSlot

def id (s : HostedSlot) : ℕ := s.row.id

def find (s : HostedSlot) (opId : ℕ) : Option Operation :=
  Keyed.lookup Operation.id opId s.operations

end HostedSlot

namespace SharedHost

def find (w : SharedHost) (id : ℕ) : Option HostedSlot := Keyed.lookup HostedSlot.id id w.slots

/-- `calculateAllocatedHostResources`, with the ports of the same instances. -/
def allocated (w : SharedHost) : Resources :=
  Keyed.total (fun s : HostedSlot => s.row.held) w.slots

def operations (w : SharedHost) : List Operation := w.slots.flatMap (·.operations)

end SharedHost

/-! ## A purchase -/

/-- A purchase, with the resources of its plan or those that were asked for. -/
structure Purchase where
  id : ℕ
  userId : ℕ
  cpu : ℕ
  memory : ℕ
  disk : ℕ
  networkMode : NetworkMode := .nat
  /-- of the plan, else of the package -/
  portLimit : ℕ
  packageHostIds : List ℕ := []
  nodeSelectors : List String := []
  hostId : Option ℕ := none
  ownerId : Option ℕ := none
  requireHourlyBillingEnabled : Bool := false
deriving DecidableEq, Repr

namespace Purchase

/-- The row that `instance.create` adds. -/
def row (p : Purchase) : HostedInstance where
  id := p.id
  userId := p.userId
  status := .creating
  cpu := p.cpu
  memory := p.memory
  disk := p.disk
  networkMode := p.networkMode
  portLimit := some p.portLimit

/-- `reservedNatPortCount`. -/
def portCount (p : Purchase) : ℕ := if p.networkMode.usesReservedNatPorts then p.portLimit else 0

/-- The `WHERE` of the query that locks the hosts, and the selector tags. -/
def selects (p : Purchase) (h : HostSelection) : Bool :=
  h.online && (!p.requireHourlyBillingEnabled || h.hourlyBillingEnabled) &&
  (match p.hostId with
    | some hostId =>
        (p.packageHostIds.isEmpty || p.packageHostIds.contains hostId) && h.id == hostId
    | none =>
        if p.packageHostIds.isEmpty then p.ownerId.all (· == h.userId)
        else p.packageHostIds.contains h.id) &&
  p.nodeSelectors.all h.tags.contains

end Purchase

/-- `selectAndReserveHostWithLock` at a host that it has locked: CPU, memory and
disk are what the rows sum up to, the ports are those of the counter. -/
def selectAndReserveHostWithLock (selection : HostSelection) (host : HostCapacity)
    (allocated : Resources) (p : Purchase) : Option HostCapacity :=
  let cpuAllowanceMax := host.cpuAllowanceMax.getD 0
  let memoryMax := host.memoryMax.getD 0
  if !p.selects selection || host.instanceDataPoolCount == 0 then none
  else if cpuAllowanceMax ≤ 0 ∨ cpuAllowanceMax < allocated.cpu + p.cpu then none
  else if memoryMax ≤ 0 ∨ memoryMax < allocated.memory + p.memory then none
  else if 0 < p.portCount ∧ host.natPortsTotal < host.used.portCount + p.portCount then none
  else some (host.withUsed
    ⟨allocated.cpu + p.cpu, allocated.memory + p.memory, allocated.disk + p.disk,
      if 0 < p.portCount then host.used.portCount + p.portCount else host.used.portCount⟩)

/-! ## One statement of an operation -/

/-- What a statement leaves: the counters, the row and the operation, unless that
is over. -/
structure Turn where
  used : Resources
  row : HostedInstance
  version : ℕ
  work : Option Work
  refused : Bool := false
deriving DecidableEq, Repr

/-- The row is claimed or written: its version goes up. -/
def Turn.write (t : Turn) (row : HostedInstance) : Turn :=
  { t with row, version := t.version + 1 }

/-- A release from the one host there is. -/
def HostCapacity.release (host : HostCapacity) (amounts : Resources) : Option HostCapacity :=
  match decrementHostResourceCounters (fun _ => some host) 0 amounts with
  | .ok hosts => hosts 0
  | .error _ => none

section

variable (w : SharedHost) (s : HostedSlot) (op : Operation)

/-- Nothing is written, and the operation goes on with `work`. -/
def Turn.goOn (work : Option Work) : Turn := ⟨w.host.used, s.row, s.version, work, false⟩

/-- The next statement of a plan change.  `ok` says whether Incus takes the change,
and whether `performPlanChange` finds nothing else against it. -/
def PlanChangeStage.next (plan : PlanResources) (ok : Bool) : PlanChangeStage → Turn
  | .begun =>
      if w.host.planFits (op.read.planDelta plan) then
        .goOn w s (some (.changePlan plan (.checked w.host.used)))
      else .goOn w s none
  | .checked used =>
      if op.read.planDelta plan = 0 then .goOn w s (some (.changePlan plan .reserved))
      else if w.host.used = used then
        { Turn.goOn w s (some (.changePlan plan .reserved)) with
            used := w.host.used + op.read.planDelta plan }
      else .goOn w s none
  | .reserved =>
      .goOn w s (some (.changePlan plan (if ok then .appliedToIncus else .undoing)))
  | .appliedToIncus =>
      if ok ∧ s.version = op.version then (Turn.goOn w s none).write (s.row.changedPlan plan)
      else .goOn w s (some (.changePlan plan .undoing))
  | .undoing => { Turn.goOn w s none with used := w.host.used + -op.read.planDelta plan }

/-- The next statement of a delivery.  `ok` says whether the code can be used, Incus
takes the change, the row can be written, and Incus takes the old value back. -/
def RedeemStage.next (codeType : RedeemCodeType) (codeValue : ℕ) (ok : Bool) : RedeemStage → Turn
  | .begun =>
      if s.version = op.version ∧ (s.row.status = .running ∨ s.row.status = .stopped) then
        (Turn.goOn w s (if ok then some (.redeem codeType codeValue .claimed) else none)).write s.row
      else .goOn w s none
  | .claimed =>
      { Turn.goOn w s (some (.redeem codeType codeValue .hostAdjusted)) with
          used := w.host.used + codeType.amount codeValue }
  | .hostAdjusted =>
      .goOn w s (some (.redeem codeType codeValue (if ok then .remoteApplied else .undoing)))
  | .remoteApplied =>
      if ok then { Turn.goOn w s none with row := codeType.deliver codeValue op.read s.row }
      else .goOn w s (some (.redeem codeType codeValue .unwritten))
  | .unwritten =>
      -- a disk that has grown is not shrunk: the row is written once more
      if ok = false then .goOn w s none
      else if codeType = .disk then
        { Turn.goOn w s none with row := codeType.deliver codeValue op.read s.row }
      else .goOn w s (some (.redeem codeType codeValue .undoing))
  | .undoing => { Turn.goOn w s none with used := w.host.used + -codeType.amount codeValue }

/-- The next statement of a deletion.  `ok` says whether the claim gets its lock, and
whether Incus deletes the instance; if it does not, the status is restored. -/
def DestroyStage.next (ok : Bool) : DestroyStage → Turn
  | .begun =>
      if ok ∧ s.row.status = op.read.status then
        (Turn.goOn w s (some (.destroy (.claimed s.row.held)))).write (s.row.withStatus .deleted)
      else .goOn w s none
  | .claimed held =>
      if ok then .goOn w s (some (.destroy (.incusDeleted held)))
      else if s.row.status = .deleted then
        (Turn.goOn w s none).write (s.row.withStatus op.read.status)
      else .goOn w s none
  | .incusDeleted held =>
      match w.host.release op.read.resources with
      | some host =>
          { Turn.goOn w s (some (.destroy (.released (held - op.read.resources)))) with
              used := host.used }
      | none => { Turn.goOn w s none with refused := true }
  | .released surplus => .goOn w s (some (.destroy (.summed surplus w.allocated)))
  | .summed surplus sums =>
      .goOn w s (some (.destroy (.counted surplus sums w.allocated.portCount)))
  | .counted surplus sums actualPortsUsed =>
      { Turn.goOn w s (some (.destroy (.overwritten surplus.portCount actualPortsUsed))) with
          used := ⟨sums.cpu, sums.memory, sums.disk, w.host.used.portCount⟩ }
  | .overwritten _ actualPortsUsed =>
      { Turn.goOn w s none with used := { w.host.used with portCount := actualPortsUsed } }

def Operation.next (ok : Bool) : Turn :=
  match op.work with
  | .changePlan plan stage => stage.next w s op plan ok
  | .redeem codeType codeValue stage => stage.next w s op codeType codeValue ok
  | .destroy stage => stage.next w s op ok

end

/-- The operations of an instance after one of them has taken its turn. -/
def HostedSlot.afterTurn (s : HostedSlot) (opId : ℕ) (t : Turn) : HostedSlot where
  row := t.row
  version := t.version
  operations :=
    match t.work with
    | none => Keyed.erase Operation.id opId s.operations
    | some work => Keyed.modify Operation.id opId (fun op => { op with work }) s.operations

/-- What codes have granted since the last check, after a turn of an operation: a
delivery grants, a plan change that has reserved more has been checked. -/
def Operation.grantedAfter (op : Operation) (t : Turn) (granted : Resources) : Resources :=
  match op.work, t.work with
  | .changePlan plan (.checked _), some _ =>
      let delta := op.read.planDelta plan
      { granted with
          cpu := if 0 < delta.cpu then 0 else granted.cpu
          memory := if 0 < delta.memory then 0 else granted.memory }
  | .redeem codeType codeValue .claimed, _ => granted + codeType.amount codeValue
  | _, _ => granted

/-! ## The host as a state machine -/

/-- What a user asks for. -/
inductive HostRequest
  | changePlan (plan : PlanResources)
  | redeem (codeType : RedeemCodeType) (codeValue : ℕ)
  | destroy
deriving DecidableEq, Repr

def HostRequest.work : HostRequest → Work
  | .changePlan plan => .changePlan plan .begun
  | .redeem codeType codeValue => .redeem codeType codeValue .begun
  | .destroy => .destroy .begun

/-- What the row must be like; deliveries to one instance take turns by a lock. -/
def HostRequest.admitted (s : HostedSlot) : HostRequest → Bool
  | .changePlan plan =>
      (s.row.status == .running || s.row.status == .stopped) && decide (s.row.disk ≤ plan.disk)
  | .redeem .. => !s.operations.any (·.work.isRedeem)
  | .destroy => s.row.status != .deleted && s.row.status != .creating

inductive SharedHostEvent
  | purchase (p : Purchase)
  | request (id opId : ℕ) (request : HostRequest)
  | turn (id opId : ℕ) (ok : Bool)
  /-- a creation is completed, an instance is started, stopped or suspended -/
  | setStatus (id : ℕ) (status : InstanceStatus)
deriving DecidableEq, Repr

namespace SharedHost

variable (w : SharedHost)

def purchase (p : Purchase) : Option SharedHost :=
  match w.find p.id, selectAndReserveHostWithLock w.selection w.host w.allocated p with
  | none, some host =>
      some { w with
        host
        slots := w.slots ++ [{ row := p.row }]
        granted := { w.granted with cpu := 0, memory := 0 } }
  | _, _ => none

/-- A request arrives and reads the instance. -/
def request (id opId : ℕ) (r : HostRequest) : Option SharedHost :=
  match w.find id with
  | none => none
  | some s =>
      if (s.find opId).isNone ∧ r.admitted s = true then
        let op : Operation := ⟨opId, s.row, s.version, r.work⟩
        some { w with
          slots := Keyed.modify HostedSlot.id id
            (fun s => { s with operations := s.operations ++ [op] }) w.slots }
      else none

/-- The next statement of a request. -/
def turn (id opId : ℕ) (ok : Bool) : Option SharedHost :=
  match w.find id with
  | none => none
  | some s =>
      match s.find opId with
      | none => none
      | some op =>
          let t := op.next w s ok
          some { w with
            host := w.host.withUsed t.used
            slots := Keyed.modify HostedSlot.id id (·.afterTurn opId t) w.slots
            refusedReleases := w.refusedReleases ++ (if t.refused then [id] else [])
            granted := op.grantedAfter t w.granted }

def setStatus (id : ℕ) (status : InstanceStatus) : Option SharedHost :=
  match w.find id with
  | none => none
  | some s =>
      if s.row.status.allocated ∧ status.allocated then
        some { w with
          slots := Keyed.modify HostedSlot.id id
            (fun s => { s with row := s.row.withStatus status }) w.slots }
      else none

end SharedHost

def sharedHostStep (w : SharedHost) : SharedHostEvent → Option SharedHost
  | .purchase p => w.purchase p
  | .request id opId r => w.request id opId r
  | .turn id opId ok => w.turn id opId ok
  | .setStatus id status => w.setStatus id status

end Incudal
