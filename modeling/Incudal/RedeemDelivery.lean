/-
# `RedeemDelivery` — the delivery of a redeem code, next to a change of plan

A code that is redeemed for an instance raises the counter of the host, the limit
on Incus and the row of the instance, or its traffic limit, or the points of the
user; what fails half way is taken back from flags, and a disk that has grown on
Incus is completed instead.  The new numbers are absolute: the row as it was read
under the lock of the redemption, and what the code adds.

A change of plan does not take that lock.  It can read the row between the claim of
a delivery and its write, and commit after it, since the write does not change the
version; then the delivery is gone from the row and not from the counter
(`delivery_lost_to_plan_change`).  Where every absolute write finds the value that
its writer has read or written itself, deliveries and changes are all or nothing,
in every order and whatever fails (`deliveries_whole`).
-/
import Incudal.HostOperations
import Incudal.PlanChangeRollback
import Incudal.RedeemCodes
import Incudal.ResourcePool

namespace Incudal

/-! ## Columns -/

/-- The column of host, Incus and row that a code raises. -/
def ResourceType.hostField : ResourceType → Option RedeemCodeType
  | .c => some .cpu
  | .r => some .memory
  | .d => some .disk
  | .t | .p => none

namespace RedeemCodeType

def column (field : RedeemCodeType) (row : HostedInstance) : ℕ :=
  match field with
  | .cpu => row.cpu
  | .memory => row.memory
  | .disk => row.disk

/-- `updateInstanceResources` with one column. -/
def setColumn (field : RedeemCodeType) (value : ℕ) (row : HostedInstance) : HostedInstance :=
  match field with
  | .cpu => { row with cpu := value }
  | .memory => { row with memory := value }
  | .disk => { row with disk := value }

def limit (field : RedeemCodeType) (limits : IncusLimits) : ℕ :=
  match field with
  | .cpu => limits.cpu
  | .memory => limits.memory
  | .disk => limits.disk

/-- `patchInstanceResources` with one limit. -/
def setLimit (field : RedeemCodeType) (value : ℕ) (limits : IncusLimits) : IncusLimits :=
  match field with
  | .cpu => { limits with cpu := value }
  | .memory => { limits with memory := value }
  | .disk => { limits with disk := value }

end RedeemCodeType

/-! ## Calls -/

/-- A statement of the compensation of a delivery. -/
inductive DeliveryUndo
  | patchBack | updateBack | adjustBack
  /-- the row of a disk that has grown on Incus -/
  | updateForward
  | releaseCode
deriving DecidableEq, Repr

/-- `POST /redeem` for a system code, by the statement that comes next. -/
inductive DeliveryStage
  | claiming | consuming | adjusting | patching | updating | logging
  | undoing (steps : List DeliveryUndo)
  | over
deriving DecidableEq, Repr

/-- A delivery, with what it has read under the lock, and its flags. -/
structure CodeDelivery where
  redeemCodeId : ℕ
  userId : ℕ
  batchId : Option String := none
  codeType : ResourceType
  codeValue : ℕ
  read : HostedInstance
  version : ℕ
  monthlyTrafficLimit : Option ℕ
  hostAdjusted : Bool := false
  remoteApplied : Bool := false
  databaseApplied : Bool := false
  codeConsumed : Bool := false
  stage : DeliveryStage := .claiming
deriving DecidableEq, Repr

inductive PlanUndo
  | patchBack | adjustBack
deriving DecidableEq, Repr

inductive PlanCallStage
  | checking
  | reserving (used : Resources)
  | patching | committing
  | undoing (steps : List PlanUndo)
  | over
deriving DecidableEq, Repr

/-- `POST /:id/change-plan`, with what it has read, and its flags. -/
structure PlanCall where
  plan : PlanResources
  /-- the traffic limit of the plan on this host -/
  newTrafficLimit : ℕ
  read : HostedInstance
  version : ℕ
  monthlyTrafficLimit : Option ℕ
  hostReserved : Bool := false
  incusApplied : Bool := false
  committed : Bool := false
  stage : PlanCallStage := .checking
deriving DecidableEq, Repr

inductive InstanceCall
  | deliver (d : CodeDelivery)
  | changePlan (p : PlanCall)
deriving DecidableEq, Repr

/-- An instance with its host, its limits on Incus, the codes, and the points of the users. -/
structure DeliveryWorld where
  row : HostedInstance
  version : ℕ := 0
  monthlyTrafficLimit : Option ℕ
  host : HostCapacity
  incus : IncusLimits
  codes : ℕ → RedeemCode
  /-- code, user and batch of each usage -/
  usages : List (ℕ × ℕ × Option String) := []
  points : ℕ → ℤ := fun _ => 0
  calls : List InstanceCall := []

inductive DeliveryEvent
  | redeem (redeemCodeId userId : ℕ) (batchId : Option String) (codeType : ResourceType)
      (codeValue : ℕ)
  | changePlan (plan : PlanResources) (newTrafficLimit : ℕ)
  /-- the next statement of a call, which fails unless `ok` -/
  | next (k : ℕ) (ok : Bool)
deriving DecidableEq, Repr

/-! ## A delivery -/

namespace CodeDelivery

variable (d : CodeDelivery)

/-- What the code adds to host, Incus and row. -/
def amount : Resources :=
  match d.codeType.hostField with
  | some field => field.amount d.codeValue
  | none => 0

def trafficBytes : ℕ := d.codeValue * (1024 * 1024 * 1024)

/-- No limit stays none. -/
def newLimit : Option ℕ := d.monthlyTrafficLimit.map (· + d.trafficBytes)

/-- The `catch`, by the flags. -/
def undoSteps : List DeliveryUndo :=
  let release := if d.codeConsumed then [DeliveryUndo.releaseCode] else []
  match d.codeType with
  | .c | .r =>
      (if d.remoteApplied then [.patchBack] else []) ++
        (if d.databaseApplied then [.updateBack] else []) ++
        (if d.hostAdjusted then [.adjustBack] else []) ++ release
  | .d =>
      if !d.remoteApplied then
        (if d.databaseApplied then [.updateBack] else []) ++
          (if d.hostAdjusted then [.adjustBack] else []) ++ release
      else if !d.databaseApplied then [.updateForward]
      else []
  | .t | .p => (if d.databaseApplied then [.updateBack] else []) ++ release

def at_ (stage : DeliveryStage) : CodeDelivery := { d with stage }

def fail : CodeDelivery := d.at_ (.undoing d.undoSteps)

/-- The flags after a statement of the compensation. -/
def undone : DeliveryUndo → CodeDelivery
  | .patchBack => { d with remoteApplied := false }
  | .updateBack => { d with databaseApplied := false }
  | .adjustBack => { d with hostAdjusted := false }
  | .updateForward => { d with databaseApplied := true }
  | .releaseCode => { d with codeConsumed := false }

end CodeDelivery

namespace DeliveryWorld

variable (w : DeliveryWorld)

def setCall (k : ℕ) (call : InstanceCall) : DeliveryWorld := { w with calls := w.calls.set k call }

/-- `adjustHostResources`, and `increment` of all four counters. -/
def adjust (delta : Resources) : DeliveryWorld :=
  { w with host := w.host.withUsed (w.host.used + delta) }

/-- The code can be used: not by the user, nor its batch, and not exhausted. -/
def canUse (d : CodeDelivery) : Bool :=
  !(w.usages.any fun u => u.1 == d.redeemCodeId && u.2.1 == d.userId) &&
    !(d.batchId.any (· ≠ "") && w.usages.any fun u => u.2.1 == d.userId && u.2.2 == d.batchId) &&
    decide ((w.codes d.redeemCodeId).usedCount < (w.codes d.redeemCodeId).maxUses)

/-- `useSystemRedeemCode` -/
def useCode (d : CodeDelivery) : DeliveryWorld :=
  let code := w.codes d.redeemCodeId
  { w with
      codes := Function.update w.codes d.redeemCodeId { code with usedCount := code.usedCount + 1 }
      usages := w.usages ++ [(d.redeemCodeId, d.userId, d.batchId)] }

/-- `releaseSystemRedeemCode` -/
def releaseCode (d : CodeDelivery) : DeliveryWorld :=
  let code := w.codes d.redeemCodeId
  if w.usages.any fun u => u.1 == d.redeemCodeId && u.2.1 == d.userId then
    { w with
        codes := Function.update w.codes d.redeemCodeId
          { code with usedCount := code.usedCount - 1 }
        usages := w.usages.eraseP fun u => u.1 == d.redeemCodeId && u.2.1 == d.userId }
  else w

/-- `addPoints` -/
def addPoints (userId : ℕ) (n : ℤ) : DeliveryWorld :=
  { w with points := Function.update w.points userId (w.points userId + n) }

/-- The local side of a delivery: the row, or the points. -/
def applyCode (d : CodeDelivery) : DeliveryWorld :=
  match d.codeType, d.codeType.hostField with
  | _, some field =>
      { w with row := field.setColumn (field.column d.read + d.codeValue) w.row }
  | .p, _ => w.addPoints d.userId d.codeValue
  | _, _ => { w with monthlyTrafficLimit := d.newLimit }

/-- The local side, taken back. -/
def unapplyCode (d : CodeDelivery) : DeliveryWorld :=
  match d.codeType, d.codeType.hostField with
  | _, some field => { w with row := field.setColumn (field.column d.read) w.row }
  | .p, _ => w.addPoints d.userId (-d.codeValue)
  | _, _ => { w with monthlyTrafficLimit := d.monthlyTrafficLimit }

def patchField (d : CodeDelivery) (value : RedeemCodeType → ℕ) : DeliveryWorld :=
  match d.codeType.hostField with
  | some field => { w with incus := field.setLimit (value field) w.incus }
  | none => w

def undo (d : CodeDelivery) : DeliveryUndo → DeliveryWorld
  | .patchBack => w.patchField d fun field => field.column d.read
  | .updateBack => w.unapplyCode d
  | .adjustBack => w.adjust (-d.amount)
  | .updateForward => w.applyCode d
  | .releaseCode => w.releaseCode d

/-- The next statement of a delivery; those of the compensation do not fail. -/
def deliverNext (d : CodeDelivery) (ok : Bool) : Option (DeliveryWorld × CodeDelivery) :=
  match d.stage with
  | .claiming =>
      if ok ∧ w.version = d.version ∧ (w.row.status = .running ∨ w.row.status = .stopped) then
        some ({ w with version := w.version + 1 }, d.at_ .consuming)
      else some (w, d.fail)
  | .consuming =>
      if ok ∧ w.canUse d then
        some (w.useCode d, { d with
          codeConsumed := true
          stage := if d.codeType.hostField.isSome then .adjusting else .updating })
      else some (w, d.fail)
  | .adjusting =>
      if ok then some (w.adjust d.amount, { d with hostAdjusted := true, stage := .patching })
      else some (w, d.fail)
  | .patching =>
      if ok then
        some (w.patchField d fun field => field.column d.read + d.codeValue,
          { d with remoteApplied := true, stage := .updating })
      else some (w, d.fail)
  | .updating =>
      if ok then some (w.applyCode d, { d with databaseApplied := true, stage := .logging })
      else some (w, d.fail)
  | .logging => some (w, if ok then d.at_ .over else d.fail)
  | .undoing [] => some (w, d.at_ .over)
  | .undoing (step :: steps) => some (w.undo d step, (d.undone step).at_ (.undoing steps))
  | .over => none

end DeliveryWorld

/-! ## A change of plan -/

namespace PlanCall

variable (p : PlanCall)

def delta : Resources := p.read.planDelta p.plan

def undoSteps : List PlanUndo :=
  (if p.incusApplied then [.patchBack] else []) ++ if p.hostReserved then [.adjustBack] else []

def at_ (stage : PlanCallStage) : PlanCall := { p with stage }

def fail : PlanCall := p.at_ (.undoing p.undoSteps)

def undone : PlanUndo → PlanCall
  | .patchBack => { p with incusApplied := false }
  | .adjustBack => { p with hostReserved := false }

end PlanCall

namespace DeliveryWorld

variable (w : DeliveryWorld)

def undoPlan (p : PlanCall) : PlanUndo → DeliveryWorld
  | .patchBack => { w with incus := p.read.incusLimits }
  | .adjustBack => w.adjust (-p.delta)

/-- The next statement of a change of plan; `performPlanChange` is one, its other checks in `ok`. -/
def planNext (p : PlanCall) (ok : Bool) : Option (DeliveryWorld × PlanCall) :=
  match p.stage with
  | .checking =>
      if ok ∧ w.host.planFits p.delta then some (w, p.at_ (.reserving w.host.used))
      else some (w, p.fail)
  | .reserving used =>
      if p.delta = 0 then some (w, p.at_ .patching)
      else if ok ∧ w.host.used = used then
        some (w.adjust p.delta, { p with hostReserved := true, stage := .patching })
      else some (w, p.fail)
  | .patching =>
      if ok then
        some ({ w with incus := ⟨p.plan.cpu, p.plan.memory, p.plan.disk⟩ },
          { p with incusApplied := true, stage := .committing })
      else some (w, p.fail)
  | .committing =>
      if ok ∧ w.version = p.version then
        some ({ w with
          row := w.row.changedPlan p.plan
          monthlyTrafficLimit := some p.newTrafficLimit
          version := w.version + 1 }, { p with committed := true, stage := .over })
      else some (w, p.fail)
  | .undoing [] => some (w, p.at_ .over)
  | .undoing (step :: steps) => some (w.undoPlan p step, (p.undone step).at_ (.undoing steps))
  | .over => none

end DeliveryWorld

/-! ## Runs -/

def InstanceCall.isOver : InstanceCall → Bool
  | .deliver d => d.stage == .over
  | .changePlan p => p.stage == .over

def InstanceCall.isDelivery : InstanceCall → Bool
  | .deliver _ => true
  | .changePlan _ => false

/-- One statement of one call, or a new call.  A delivery begins when it has the lock of the
instance, so none is in progress; a change begins for a plan with no smaller disk. -/
def deliveryStep (w : DeliveryWorld) : DeliveryEvent → Option DeliveryWorld
  | .redeem redeemCodeId userId batchId codeType codeValue =>
      if w.calls.all fun call => call.isOver || !call.isDelivery then
        some { w with calls := w.calls ++ [.deliver
          { redeemCodeId, userId, batchId, codeType, codeValue, read := w.row, version := w.version
            monthlyTrafficLimit := w.monthlyTrafficLimit }] }
      else none
  | .changePlan plan newTrafficLimit =>
      if (w.row.status = .running ∨ w.row.status = .stopped) ∧ w.row.disk ≤ plan.disk then
        some { w with calls := w.calls ++ [.changePlan
          { plan, newTrafficLimit, read := w.row, version := w.version
            monthlyTrafficLimit := w.monthlyTrafficLimit }] }
      else none
  | .next k ok =>
      match w.calls[k]? with
      | none => none
      | some (.deliver d) =>
          (w.deliverNext d ok).map fun (w', d') => w'.setCall k (.deliver d')
      | some (.changePlan p) =>
          (w.planNext p ok).map fun (w', p') => w'.setCall k (.changePlan p')

/-! ## When nothing is lost -/

/-- An absolute value is written over the one that the delivery has read, or written itself. -/
def CodeDelivery.writesCurrent (w : DeliveryWorld) (d : CodeDelivery) (ok : Bool) : Bool :=
  match d.stage, d.codeType.hostField with
  | .patching, some field => !ok || field.limit w.incus == field.column d.read
  | .updating, some field => !ok || field.column w.row == field.column d.read
  | .updating, none =>
      !ok || d.codeType == .p || w.monthlyTrafficLimit == d.monthlyTrafficLimit
  | .undoing (.patchBack :: _), some field =>
      field.limit w.incus == field.column d.read + d.codeValue
  | .undoing (.updateBack :: _), some field =>
      field.column w.row == field.column d.read + d.codeValue
  | .undoing (.updateBack :: _), none => d.codeType == .p || w.monthlyTrafficLimit == d.newLimit
  | .undoing (.updateForward :: _), some field => field.column w.row == field.column d.read
  | _, _ => true

def PlanCall.writesCurrent (w : DeliveryWorld) (p : PlanCall) (ok : Bool) : Bool :=
  match p.stage with
  | .patching => !ok || w.incus == p.read.incusLimits
  | .committing => !ok || w.version != p.version ||
      (w.row == p.read && w.monthlyTrafficLimit == p.monthlyTrafficLimit)
  | .undoing (.patchBack :: _) => w.incus == ⟨p.plan.cpu, p.plan.memory, p.plan.disk⟩
  | _ => true

/-- No step writes over what it does not know of. -/
def nothingOverwritten (w : DeliveryWorld) : DeliveryEvent → Bool
  | .next k ok =>
      match w.calls[k]? with
      | some (.deliver d) => d.writesCurrent w ok
      | some (.changePlan p) => p.writesCurrent w ok
      | none => true
  | _ => true

/-! ## Levels -/

inductive HostColumn
  | cpu | memory | disk | portCount
deriving DecidableEq, Repr

def Resources.get (r : Resources) : HostColumn → ℤ
  | .cpu => r.cpu
  | .memory => r.memory
  | .disk => r.disk
  | .portCount => r.portCount

/-- What can be raised, and by what a user has or not has used a code. -/
inductive Gauge
  | row (column : HostColumn) | host (column : HostColumn) | incus (column : HostColumn)
  | traffic
  | points (userId : ℕ)
  | usedCount (redeemCodeId : ℕ)
  | usages (redeemCodeId userId : ℕ)
deriving DecidableEq, Repr

def IncusLimits.resources (limits : IncusLimits) : Resources :=
  ⟨limits.cpu, limits.memory, limits.disk, 0⟩

def DeliveryWorld.level (w : DeliveryWorld) : Gauge → ℤ
  | .row column => w.row.resources.get column
  | .host column => w.host.used.get column
  | .incus column => w.incus.resources.get column
  | .traffic => (w.monthlyTrafficLimit.getD 0 : ℕ)
  | .points userId => w.points userId
  | .usedCount redeemCodeId => (w.codes redeemCodeId).usedCount
  | .usages redeemCodeId userId =>
      w.usages.countP fun u => u.1 == redeemCodeId && u.2.1 == userId

namespace CodeDelivery

variable (d : CodeDelivery)

/-- What the delivery raises, as a whole. -/
def adds : Gauge → ℤ
  | .row column | .host column | .incus column => d.amount.get column
  | .traffic => if d.codeType = .t ∧ d.monthlyTrafficLimit.isSome then d.trafficBytes else 0
  | .points userId => if d.codeType = .p ∧ userId = d.userId then d.codeValue else 0
  | .usedCount redeemCodeId => if redeemCodeId = d.redeemCodeId then 1 else 0
  | .usages redeemCodeId userId =>
      if redeemCodeId = d.redeemCodeId ∧ userId = d.userId then 1 else 0

/-- The flag that says whether it has. -/
def flag : Gauge → Bool
  | .row _ | .traffic | .points _ => d.databaseApplied
  | .host _ => d.hostAdjusted
  | .incus _ => d.remoteApplied
  | .usedCount _ | .usages _ _ => d.codeConsumed

def part (g : Gauge) : ℤ := if d.flag g then d.adds g else 0

end CodeDelivery

namespace PlanCall

variable (p : PlanCall)

def adds : Gauge → ℤ
  | .row column | .host column => p.delta.get column
  | .incus column => ({ p.delta with portCount := 0 } : Resources).get column
  | .traffic => p.newTrafficLimit - (p.monthlyTrafficLimit.getD 0 : ℕ)
  | _ => 0

def flag : Gauge → Bool
  | .host _ => p.hostReserved
  | .incus _ => p.incusApplied
  | _ => p.committed

def part (g : Gauge) : ℤ := if p.flag g then p.adds g else 0

end PlanCall

namespace InstanceCall

/-- What a call has in a gauge. -/
def part (g : Gauge) : InstanceCall → ℤ
  | .deliver d => d.part g
  | .changePlan p => p.part g

/-- The code is consumed, or the plan is changed. -/
def succeeded : InstanceCall → Bool
  | .deliver d => d.codeConsumed
  | .changePlan p => p.committed

/-- What a call that is over has to have moved: all or nothing. -/
def moved (g : Gauge) : InstanceCall → ℤ
  | .deliver d => if d.codeConsumed then d.adds g else 0
  | .changePlan p => if p.committed then p.adds g else 0

end InstanceCall

/-- When no call is in progress, each has moved all of its own or nothing, and nothing else has
moved; so host and Incus have moved by the change of the row. -/
structure DeliveriesWhole (w₀ w : DeliveryWorld) : Prop where
  whole : (∀ call ∈ w.calls, call.isOver = true) →
    ∀ g, w.level g = w₀.level g + (w.calls.map (·.moved g)).sum
  follows : (∀ call ∈ w.calls, call.isOver = true) → ∀ column,
    w.level (.host column) - w₀.level (.host column) =
      w.level (.row column) - w₀.level (.row column)

/-! ## One statement -/

section Columns

variable {r s : Resources} {field : RedeemCodeType} {value : ℕ} {row : HostedInstance}
  {limits : IncusLimits}

@[simp] theorem get_zero (column : HostColumn) : (0 : Resources).get column = 0 := by
  cases column <;> rfl

@[simp] theorem get_add (column : HostColumn) :
    (r + s).get column = r.get column + s.get column := by
  cases column <;> rfl

@[simp] theorem get_neg (column : HostColumn) : (-r).get column = -r.get column := by
  cases column <;> rfl

@[simp] theorem get_sub (column : HostColumn) :
    (r - s).get column = r.get column - s.get column := by
  cases column <;> rfl

/-- A column that is set moves by the difference to what was there. -/
theorem get_setColumn (column : HostColumn) {old new : ℕ} (hold : field.column row = old)
    (hnew : old + value = new) :
    (field.setColumn new row).resources.get column =
      row.resources.get column + (field.amount value).get column := by
  subst hold
  cases field <;> cases column <;>
    simp [RedeemCodeType.setColumn, RedeemCodeType.column, RedeemCodeType.amount, Resources.get,
      HostedInstance.resources, HostedInstance.reservedPorts, ← hnew]

theorem get_setColumn_back (column : HostColumn) {old new : ℕ} (hold : field.column row = old)
    (hnew : new + value = old) :
    (field.setColumn new row).resources.get column =
      row.resources.get column - (field.amount value).get column := by
  have hset : field.column (field.setColumn new row) = new := by cases field <;> rfl
  have hback : field.setColumn old (field.setColumn new row) = row := by
    subst hold
    cases field <;> rfl
  have hforward := get_setColumn column hset hnew
  rw [hback] at hforward
  exact eq_sub_of_add_eq hforward.symm

theorem get_setLimit (column : HostColumn) {old new : ℕ} (hold : field.limit limits = old)
    (hnew : old + value = new) :
    (field.setLimit new limits).resources.get column =
      limits.resources.get column + (field.amount value).get column := by
  subst hold
  cases field <;> cases column <;>
    simp [RedeemCodeType.setLimit, RedeemCodeType.limit, RedeemCodeType.amount, Resources.get,
      IncusLimits.resources, ← hnew]

theorem get_setLimit_back (column : HostColumn) {old new : ℕ} (hold : field.limit limits = old)
    (hnew : new + value = old) :
    (field.setLimit new limits).resources.get column =
      limits.resources.get column - (field.amount value).get column := by
  have hset : field.limit (field.setLimit new limits) = new := by cases field <;> rfl
  have hback : field.setLimit old (field.setLimit new limits) = limits := by
    subst hold
    cases field <;> rfl
  have hforward := get_setLimit column hset hnew
  rw [hback] at hforward
  exact eq_sub_of_add_eq hforward.symm

end Columns

/-! ### A delivery -/

namespace CodeDelivery

variable (d : CodeDelivery)

/-- All of its flags agree, the two of host and Incus where the code has a column there. -/
def Whole : Prop :=
  d.databaseApplied = d.codeConsumed ∧
    (d.codeType.hostField.isSome = true →
      d.hostAdjusted = d.codeConsumed ∧ d.remoteApplied = d.codeConsumed)

/-- A statement of the compensation that has something to do. -/
def undoes : DeliveryUndo → Bool
  | .patchBack => d.remoteApplied && d.codeType.hostField.isSome
  | .updateBack => d.databaseApplied
  | .adjustBack => d.hostAdjusted
  | .updateForward => !d.databaseApplied && d.codeType.hostField.isSome
  | .releaseCode => d.codeConsumed

/-- Statements of the compensation that make the delivery whole. -/
def Completes : CodeDelivery → List DeliveryUndo → Prop
  | d, [] => d.Whole
  | d, step :: steps => d.undoes step = true ∧ Completes (d.undone step) steps

/-- The flags at each statement. -/
def StageOk : Prop :=
  let field := d.codeType.hostField.isSome
  match d.stage with
  | .claiming | .consuming =>
      d.codeConsumed = false ∧ d.hostAdjusted = false ∧ d.remoteApplied = false ∧
        d.databaseApplied = false
  | .adjusting =>
      field = true ∧ d.codeConsumed = true ∧ d.hostAdjusted = false ∧ d.remoteApplied = false ∧
        d.databaseApplied = false
  | .patching =>
      field = true ∧ d.codeConsumed = true ∧ d.hostAdjusted = true ∧ d.remoteApplied = false ∧
        d.databaseApplied = false
  | .updating =>
      d.codeConsumed = true ∧ d.hostAdjusted = field ∧ d.remoteApplied = field ∧
        d.databaseApplied = false
  | .logging =>
      d.codeConsumed = true ∧ d.hostAdjusted = field ∧ d.remoteApplied = field ∧
        d.databaseApplied = true
  | .undoing steps => d.Completes steps
  | .over => d.Whole

end CodeDelivery

section Deliveries

variable {w w' : DeliveryWorld} {d d' : CodeDelivery} {ok : Bool} {field : RedeemCodeType}
  {stage : DeliveryStage}

theorem completes_at {steps : List DeliveryUndo} (h : d.Completes steps) :
    (d.at_ stage).Completes steps := by
  induction steps generalizing d with
  | nil => exact h
  | cons step steps ih =>
      refine ⟨?_, ?_⟩
      · cases step <;> exact h.1
      · cases step <;> exact ih h.2

/-- The compensation completes what it finds, since Incus comes after the code and the host. -/
theorem completes_undoSteps
    (h : d.remoteApplied = true → d.hostAdjusted = true ∧ d.codeConsumed = true) :
    d.Completes d.undoSteps := by
  obtain ⟨redeemCodeId, userId, batchId, codeType, codeValue, read, version, limit, host, remote,
    database, consumed, stage⟩ := d
  cases codeType <;> cases remote <;> cases database <;> cases host <;> cases consumed <;>
    simp_all [CodeDelivery.Completes, CodeDelivery.undoSteps, CodeDelivery.undoes,
      CodeDelivery.undone, CodeDelivery.Whole, ResourceType.hostField]

/-- The stores move by what the flags say. -/
def Moves (w : DeliveryWorld) (d : CodeDelivery) (w' : DeliveryWorld) (d' : CodeDelivery) : Prop :=
  ∀ g, w'.level g = w.level g + (d'.part g - d.part g)

theorem moves_at (w : DeliveryWorld) (d : CodeDelivery) (stage : DeliveryStage) :
    Moves w d w (d.at_ stage) := by
  intro g
  have hpart : (d.at_ stage).part g = d.part g := by cases g <;> rfl
  simp [hpart]

theorem level_adjust (delta : Resources) (g : Gauge) :
    (w.adjust delta).level g = w.level g + match g with
      | .host column => delta.get column
      | _ => 0 := by
  cases g <;> simp [DeliveryWorld.level, DeliveryWorld.adjust, HostCapacity.withUsed]

theorem amount_eq (hfield : d.codeType.hostField = some field) :
    d.amount = field.amount d.codeValue := by
  simp [CodeDelivery.amount, hfield]

/-- The row as the delivery has read it. -/
def CodeDelivery.RowCurrent (w : DeliveryWorld) (d : CodeDelivery) : Prop :=
  (∀ field, d.codeType.hostField = some field → field.column w.row = field.column d.read) ∧
    (d.codeType = .t → w.monthlyTrafficLimit = d.monthlyTrafficLimit)

/-- The row as the delivery has written it. -/
def CodeDelivery.RowRaised (w : DeliveryWorld) (d : CodeDelivery) : Prop :=
  (∀ field, d.codeType.hostField = some field →
    field.column w.row = field.column d.read + d.codeValue) ∧
    (d.codeType = .t → w.monthlyTrafficLimit = d.newLimit)

theorem update_add (f : ℕ → ℤ) (k : ℕ) (n : ℤ) (i : ℕ) :
    Function.update f k (f k + n) i = f i + if i = k then n else 0 := by
  by_cases h : i = k
  · subst h
    simp
  · simp [h]

theorem getD_map_add (limit : Option ℕ) (n : ℕ) :
    (((limit.map (· + n)).getD 0 : ℕ) : ℤ) =
      (limit.getD 0 : ℕ) + if limit.isSome then (n : ℤ) else 0 := by
  cases limit <;> simp

theorem amount_none (hfield : d.codeType.hostField = none) : d.amount = 0 := by
  simp [CodeDelivery.amount, hfield]

/-- What the local side of a code is, by its type. -/
theorem codeType_cases (d : CodeDelivery) :
    (∃ field, d.codeType.hostField = some field ∧ d.codeType ≠ .t ∧ d.codeType ≠ .p) ∨
      (d.codeType.hostField = none ∧ d.codeType = .t) ∨
      d.codeType.hostField = none ∧ d.codeType = .p := by
  cases d.codeType <;> simp [ResourceType.hostField]

theorem level_applyCode (h : d.RowCurrent w) (g : Gauge) :
    (w.applyCode d).level g = w.level g + match g with
      | .row _ | .traffic | .points _ => d.adds g
      | _ => 0 := by
  rcases codeType_cases d with ⟨field, hfield, ht, hp⟩ | ⟨hfield, htype⟩ | ⟨hfield, htype⟩
  · have hrow : ∀ column, (field.setColumn (field.column d.read + d.codeValue) w.row).resources.get
        column = w.row.resources.get column + d.amount.get column := fun column =>
      amount_eq hfield ▸ get_setColumn column (h.1 field hfield) rfl
    cases g <;> simp [DeliveryWorld.level, DeliveryWorld.applyCode, hfield, CodeDelivery.adds, hrow,
      ht, hp]
  · have hlimit : ((d.newLimit.getD 0 : ℕ) : ℤ) = (d.monthlyTrafficLimit.getD 0 : ℕ) +
        if d.monthlyTrafficLimit.isSome then (d.trafficBytes : ℤ) else 0 := getD_map_add _ _
    have hamount := amount_none hfield
    cases g <;> simp [DeliveryWorld.level, DeliveryWorld.applyCode, htype, ResourceType.hostField,
      CodeDelivery.adds, hamount, hlimit, h.2 htype]
  · have hamount := amount_none hfield
    cases g <;> simp [DeliveryWorld.level, DeliveryWorld.applyCode, htype, ResourceType.hostField,
      CodeDelivery.adds, hamount, DeliveryWorld.addPoints, update_add]

theorem level_unapplyCode (h : d.RowRaised w) (g : Gauge) :
    (w.unapplyCode d).level g = w.level g - match g with
      | .row _ | .traffic | .points _ => d.adds g
      | _ => 0 := by
  rcases codeType_cases d with ⟨field, hfield, ht, hp⟩ | ⟨hfield, htype⟩ | ⟨hfield, htype⟩
  · have hrow : ∀ column, (field.setColumn (field.column d.read) w.row).resources.get column =
        w.row.resources.get column - d.amount.get column := fun column =>
      amount_eq hfield ▸ get_setColumn_back column (h.1 field hfield) rfl
    cases g <;> simp [DeliveryWorld.level, DeliveryWorld.unapplyCode, hfield, CodeDelivery.adds,
      hrow, ht, hp]
  · have hlimit : ((d.newLimit.getD 0 : ℕ) : ℤ) = (d.monthlyTrafficLimit.getD 0 : ℕ) +
        if d.monthlyTrafficLimit.isSome then (d.trafficBytes : ℤ) else 0 := getD_map_add _ _
    have hamount := amount_none hfield
    cases g <;> simp [DeliveryWorld.level, DeliveryWorld.unapplyCode, htype, ResourceType.hostField,
      CodeDelivery.adds, hamount, hlimit, h.2 htype]
  · have hamount := amount_none hfield
    cases g with
    | points userId =>
        by_cases hu : userId = d.userId <;> simp [DeliveryWorld.level, DeliveryWorld.unapplyCode,
          htype, ResourceType.hostField, CodeDelivery.adds, DeliveryWorld.addPoints, hu,
          sub_eq_add_neg]
    | _ =>
        simp [DeliveryWorld.level, DeliveryWorld.unapplyCode, htype, ResourceType.hostField,
          CodeDelivery.adds, hamount, DeliveryWorld.addPoints]

theorem level_patchField (hfield : d.codeType.hostField = some field)
    (h : field.limit w.incus = field.column d.read) (g : Gauge) :
    (w.patchField d fun field => field.column d.read + d.codeValue).level g =
      w.level g + match g with
        | .incus column => d.amount.get column
        | _ => 0 := by
  have hlimit : ∀ column, (field.setLimit (field.column d.read + d.codeValue) w.incus).resources.get
      column = w.incus.resources.get column + d.amount.get column := fun column =>
    amount_eq hfield ▸ get_setLimit column h rfl
  cases g <;> simp [DeliveryWorld.level, DeliveryWorld.patchField, hfield, hlimit]

theorem level_patchBack (hfield : d.codeType.hostField = some field)
    (h : field.limit w.incus = field.column d.read + d.codeValue) (g : Gauge) :
    (w.patchField d fun field => field.column d.read).level g =
      w.level g - match g with
        | .incus column => d.amount.get column
        | _ => 0 := by
  have hlimit : ∀ column, (field.setLimit (field.column d.read) w.incus).resources.get column =
      w.incus.resources.get column - d.amount.get column := fun column =>
    amount_eq hfield ▸ get_setLimit_back column h rfl
  cases g <;> simp [DeliveryWorld.level, DeliveryWorld.patchField, hfield, hlimit]

theorem level_useCode (g : Gauge) :
    (w.useCode d).level g = w.level g + match g with
      | .usedCount _ | .usages _ _ => d.adds g
      | _ => 0 := by
  cases g with
  | usedCount redeemCodeId =>
      by_cases hid : redeemCodeId = d.redeemCodeId
      · subst hid
        simp [DeliveryWorld.level, DeliveryWorld.useCode, CodeDelivery.adds]
      · simp [DeliveryWorld.level, DeliveryWorld.useCode, CodeDelivery.adds, hid]
  | usages redeemCodeId userId =>
      by_cases hown : redeemCodeId = d.redeemCodeId ∧ userId = d.userId
      · obtain ⟨rfl, rfl⟩ := hown
        simp [DeliveryWorld.level, DeliveryWorld.useCode, CodeDelivery.adds]
      · have hother : ¬(d.redeemCodeId = redeemCodeId ∧ d.userId = userId) :=
          fun h => hown ⟨h.1.symm, h.2.symm⟩
        simp [DeliveryWorld.level, DeliveryWorld.useCode, CodeDelivery.adds, hown, hother]
  | _ => simp [DeliveryWorld.level, DeliveryWorld.useCode]

theorem level_releaseCode (hcount : 0 < w.level (.usedCount d.redeemCodeId))
    (husage : 0 < w.level (.usages d.redeemCodeId d.userId)) (g : Gauge) :
    (w.releaseCode d).level g = w.level g - match g with
      | .usedCount _ | .usages _ _ => d.adds g
      | _ => 0 := by
  let own : ℕ × ℕ × Option String → Bool := fun u => u.1 == d.redeemCodeId && u.2.1 == d.userId
  have hused : 1 ≤ (w.codes d.redeemCodeId).usedCount := Int.natCast_pos.mp hcount
  have hpos : 0 < w.usages.countP own := Int.natCast_pos.mp husage
  obtain ⟨u, hu, hown⟩ := List.countP_pos_iff.mp hpos
  obtain ⟨v, before, after, -, hv, hsplit, herase⟩ := List.exists_of_eraseP hu hown
  have hrelease : w.releaseCode d = { w with
      codes := Function.update w.codes d.redeemCodeId { w.codes d.redeemCodeId with
        usedCount := (w.codes d.redeemCodeId).usedCount - 1 }
      usages := before ++ after } := by
    rw [← herase]
    exact if_pos (List.any_eq_true.mpr ⟨u, hu, hown⟩)
  rw [hrelease]
  cases g with
  | usedCount redeemCodeId =>
      by_cases hid : redeemCodeId = d.redeemCodeId
      · subst hid
        simp [DeliveryWorld.level, CodeDelivery.adds, Nat.cast_sub hused]
      · simp [DeliveryWorld.level, CodeDelivery.adds, hid]
  | usages redeemCodeId userId =>
      obtain ⟨hcode, huser⟩ : v.1 = d.redeemCodeId ∧ v.2.1 = d.userId := by simpa [own] using hv
      simp only [DeliveryWorld.level, CodeDelivery.adds, hsplit, List.countP_append,
        List.countP_cons, hcode, huser]
      by_cases hmine : redeemCodeId = d.redeemCodeId ∧ userId = d.userId
      · obtain ⟨rfl, rfl⟩ := hmine
        simp
        omega
      · have hother : ¬(d.redeemCodeId = redeemCodeId ∧ d.userId = userId) :=
          fun h => hmine ⟨h.1.symm, h.2.symm⟩
        simp [hmine, hother]
  | _ => simp [DeliveryWorld.level]

/-! What the flags say of each gauge, when one of them is written. -/

theorem part_hostAdjusted (d : CodeDelivery) (stage : DeliveryStage) (b : Bool) (g : Gauge) :
    ({ d with hostAdjusted := b, stage } : CodeDelivery).part g - d.part g = match g with
      | .host _ => (if b then d.adds g else 0) - if d.hostAdjusted then d.adds g else 0
      | _ => 0 := by
  cases g <;> first | rfl | exact sub_self _

theorem part_remoteApplied (d : CodeDelivery) (stage : DeliveryStage) (b : Bool) (g : Gauge) :
    ({ d with remoteApplied := b, stage } : CodeDelivery).part g - d.part g = match g with
      | .incus _ => (if b then d.adds g else 0) - if d.remoteApplied then d.adds g else 0
      | _ => 0 := by
  cases g <;> first | rfl | exact sub_self _

theorem part_databaseApplied (d : CodeDelivery) (stage : DeliveryStage) (b : Bool) (g : Gauge) :
    ({ d with databaseApplied := b, stage } : CodeDelivery).part g - d.part g = match g with
      | .row _ | .traffic | .points _ =>
          (if b then d.adds g else 0) - if d.databaseApplied then d.adds g else 0
      | _ => 0 := by
  cases g <;> first | rfl | exact sub_self _

theorem part_codeConsumed (d : CodeDelivery) (stage : DeliveryStage) (b : Bool) (g : Gauge) :
    ({ d with codeConsumed := b, stage } : CodeDelivery).part g - d.part g = match g with
      | .usedCount _ | .usages _ _ =>
          (if b then d.adds g else 0) - if d.codeConsumed then d.adds g else 0
      | _ => 0 := by
  cases g <;> first | rfl | exact sub_self _

/-- A failure moves nothing, and its compensation completes. -/
theorem fail_moves (w : DeliveryWorld) (d : CodeDelivery)
    (h : d.remoteApplied = true → d.hostAdjusted = true ∧ d.codeConsumed = true) :
    Moves w d w d.fail ∧ d.fail.StageOk :=
  ⟨moves_at w d _, completes_at (completes_undoSteps h)⟩

/-- A statement of the compensation takes back what its flag says, or completes it. -/
theorem undo_moves {step : DeliveryUndo} (hdo : d.undoes step = true)
    (hrow : step = .updateBack → d.RowRaised w) (hrow' : step = .updateForward → d.RowCurrent w)
    (hincus : ∀ field, step = .patchBack → d.codeType.hostField = some field →
      field.limit w.incus = field.column d.read + d.codeValue)
    (hcode : d.codeConsumed = true → 0 < w.level (.usedCount d.redeemCodeId) ∧
      0 < w.level (.usages d.redeemCodeId d.userId)) :
    Moves w d (w.undo d step) ((d.undone step).at_ stage) := by
  intro g
  cases step with
  | patchBack =>
      obtain ⟨hremote, hsome⟩ := Bool.and_eq_true_iff.mp hdo
      obtain ⟨field, hfield⟩ := Option.isSome_iff_exists.mp hsome
      have hlevel : (w.undo d .patchBack).level g = _ :=
        level_patchBack hfield (hincus field rfl hfield) g
      have hpart : ((d.undone .patchBack).at_ stage).part g - d.part g = _ :=
        part_remoteApplied d stage false g
      rw [hlevel, hpart]
      cases g <;> simp [hremote, CodeDelivery.adds, sub_eq_add_neg]
  | updateBack =>
      have hdatabase : d.databaseApplied = true := hdo
      have hlevel : (w.undo d .updateBack).level g = _ := level_unapplyCode (hrow rfl) g
      have hpart : ((d.undone .updateBack).at_ stage).part g - d.part g = _ :=
        part_databaseApplied d stage false g
      rw [hlevel, hpart]
      cases g <;> simp [hdatabase, sub_eq_add_neg]
  | adjustBack =>
      have hhost : d.hostAdjusted = true := hdo
      have hlevel : (w.undo d .adjustBack).level g = _ := level_adjust (-d.amount) g
      have hpart : ((d.undone .adjustBack).at_ stage).part g - d.part g = _ :=
        part_hostAdjusted d stage false g
      rw [hlevel, hpart]
      cases g <;> simp [hhost, CodeDelivery.adds]
  | updateForward =>
      obtain ⟨hdatabase, -⟩ := Bool.and_eq_true_iff.mp hdo
      have hlevel : (w.undo d .updateForward).level g = _ := level_applyCode (hrow' rfl) g
      have hpart : ((d.undone .updateForward).at_ stage).part g - d.part g = _ :=
        part_databaseApplied d stage true g
      rw [hlevel, hpart]
      have hunwritten : d.databaseApplied = false := by simpa using hdatabase
      cases g <;> simp [hunwritten]
  | releaseCode =>
      have hconsumed : d.codeConsumed = true := hdo
      obtain ⟨hcount, husage⟩ := hcode hconsumed
      have hlevel : (w.undo d .releaseCode).level g = _ := level_releaseCode hcount husage g
      have hpart : ((d.undone .releaseCode).at_ stage).part g - d.part g = _ :=
        part_codeConsumed d stage false g
      rw [hlevel, hpart]
      cases g <;> simp [hconsumed, sub_eq_add_neg]

/-! What the condition says where an absolute value is written. -/

theorem rowCurrent_of_updating (hstage : d.stage = .updating)
    (hw : d.writesCurrent w true = true) : d.RowCurrent w := by
  refine ⟨fun field hfield => ?_, fun htype => ?_⟩
  · simpa [CodeDelivery.writesCurrent, hstage, hfield] using hw
  · simpa [CodeDelivery.writesCurrent, hstage, htype, ResourceType.hostField] using hw

theorem rowRaised_of_undoing {steps : List DeliveryUndo}
    (hstage : d.stage = .undoing (.updateBack :: steps)) (hw : d.writesCurrent w ok = true) :
    d.RowRaised w := by
  refine ⟨fun field hfield => ?_, fun htype => ?_⟩
  · simpa [CodeDelivery.writesCurrent, hstage, hfield] using hw
  · simpa [CodeDelivery.writesCurrent, hstage, htype, ResourceType.hostField] using hw

theorem rowCurrent_of_undoing {steps : List DeliveryUndo}
    (hstage : d.stage = .undoing (.updateForward :: steps))
    (hfield : d.codeType.hostField.isSome = true) (hw : d.writesCurrent w ok = true) :
    d.RowCurrent w := by
  refine ⟨fun field hfield => ?_, fun htype => ?_⟩
  · simpa [CodeDelivery.writesCurrent, hstage, hfield] using hw
  · simp [htype, ResourceType.hostField] at hfield

/-- One statement of a delivery: the stores move by what its flags say, and they say what its
stage does. -/
theorem deliverNext_moves (hs : d.StageOk) (hw : d.writesCurrent w ok = true)
    (hcode : d.codeConsumed = true → 0 < w.level (.usedCount d.redeemCodeId) ∧
      0 < w.level (.usages d.redeemCodeId d.userId))
    (h : w.deliverNext d ok = some (w', d')) : Moves w d w' d' ∧ d'.StageOk := by
  unfold DeliveryWorld.deliverNext at h
  unfold CodeDelivery.StageOk at hs
  dsimp only at hs
  split at h <;> rename_i hstage <;> simp only [hstage] at hs
  · obtain ⟨hconsumed, hhost, hremote, hdatabase⟩ := hs
    split at h
    · simp only [Option.some.injEq, Prod.mk.injEq] at h
      obtain ⟨rfl, rfl⟩ := h
      refine ⟨moves_at w d _, hconsumed, hhost, hremote, hdatabase⟩
    · cases h
      exact fail_moves w d (by simp [hremote])
  · obtain ⟨hconsumed, hhost, hremote, hdatabase⟩ := hs
    split at h
    · cases h
      refine ⟨fun g => ?_, ?_⟩
      · have hpart := part_codeConsumed d
          (if d.codeType.hostField.isSome = true then .adjusting else .updating) true g
        rw [level_useCode g, hpart]
        cases g <;> simp [hconsumed]
      · cases hfield : d.codeType.hostField.isSome with
        | true => exact ⟨hfield, rfl, hhost, hremote, hdatabase⟩
        | false => exact ⟨rfl, hhost.trans hfield.symm, hremote.trans hfield.symm, hdatabase⟩
    · cases h
      exact fail_moves w d (by simp [hremote])
  · obtain ⟨hfield, hconsumed, hhost, hremote, hdatabase⟩ := hs
    split at h
    · cases h
      refine ⟨fun g => ?_, hfield, hconsumed, rfl, hremote, hdatabase⟩
      rw [level_adjust d.amount g, part_hostAdjusted d .patching true g]
      cases g <;> simp [hhost, CodeDelivery.adds]
    · cases h
      exact fail_moves w d (by simp [hremote])
  · obtain ⟨hsome, hconsumed, hhost, hremote, hdatabase⟩ := hs
    obtain ⟨field, hfield⟩ := Option.isSome_iff_exists.mp hsome
    split at h
    · rename_i hok
      cases h
      have hcurrent : field.limit w.incus = field.column d.read := by
        simpa [CodeDelivery.writesCurrent, hstage, hfield, hok] using hw
      refine ⟨fun g => ?_, hconsumed, hhost.trans hsome.symm, hsome.symm, hdatabase⟩
      rw [level_patchField hfield hcurrent g, part_remoteApplied d .updating true g]
      cases g <;> simp [hremote, CodeDelivery.adds]
    · cases h
      exact fail_moves w d (by simp [hremote])
  · obtain ⟨hconsumed, hhost, hremote, hdatabase⟩ := hs
    split at h
    · rename_i hok
      cases h
      subst hok
      refine ⟨fun g => ?_, hconsumed, hhost, hremote, rfl⟩
      rw [level_applyCode (rowCurrent_of_updating hstage hw) g,
        part_databaseApplied d .logging true g]
      cases g <;> simp [hdatabase]
    · cases h
      exact fail_moves w d fun h => ⟨hhost.trans (hremote.symm.trans h), hconsumed⟩
  · obtain ⟨hconsumed, hhost, hremote, hdatabase⟩ := hs
    cases h
    split
    · refine ⟨moves_at w d _, hdatabase.trans hconsumed.symm, fun hfield => ?_⟩
      exact ⟨hhost.trans (hfield.trans hconsumed.symm), hremote.trans (hfield.trans hconsumed.symm)⟩
    · exact fail_moves w d fun h => ⟨hhost.trans (hremote.symm.trans h), hconsumed⟩
  · cases h
    exact ⟨moves_at w d _, hs⟩
  · rename_i step steps
    cases h
    obtain ⟨hdo, hrest⟩ := hs
    refine ⟨undo_moves hdo ?_ ?_ ?_ hcode, completes_at hrest⟩
    · rintro rfl
      exact rowRaised_of_undoing hstage hw
    · rintro rfl
      exact rowCurrent_of_undoing hstage (Bool.and_eq_true_iff.mp hdo).2 hw
    · rintro field rfl hfield
      simpa [CodeDelivery.writesCurrent, hstage, hfield] using hw
  · cases h

end Deliveries

/-! ### A change of plan -/

namespace PlanCall

variable (p : PlanCall)

/-- Its flags agree, that of the host unless there is nothing to reserve. -/
def Whole : Prop := p.incusApplied = p.committed ∧ (p.hostReserved = p.committed ∨ p.delta = 0)

def undoes : PlanUndo → Bool
  | .patchBack => p.incusApplied
  | .adjustBack => p.hostReserved

def Completes : PlanCall → List PlanUndo → Prop
  | p, [] => p.Whole
  | p, step :: steps => p.undoes step = true ∧ Completes (p.undone step) steps

def StageOk : Prop :=
  match p.stage with
  | .checking | .reserving _ =>
      p.committed = false ∧ p.incusApplied = false ∧ p.hostReserved = false
  | .patching =>
      p.committed = false ∧ p.incusApplied = false ∧ (p.hostReserved = true ∨ p.delta = 0)
  | .committing =>
      p.committed = false ∧ p.incusApplied = true ∧ (p.hostReserved = true ∨ p.delta = 0)
  | .undoing steps => p.committed = false ∧ p.Completes steps
  | .over => p.Whole

end PlanCall

section Plans

variable {w w' : DeliveryWorld} {p p' : PlanCall} {ok : Bool} {stage : PlanCallStage}

theorem plan_completes_at {steps : List PlanUndo} (h : p.Completes steps) :
    (p.at_ stage).Completes steps := by
  induction steps generalizing p with
  | nil => exact h
  | cons step steps ih =>
      refine ⟨?_, ?_⟩
      · cases step <;> exact h.1
      · cases step <;> exact ih h.2

theorem plan_completes_undoSteps (h : p.committed = false) : p.Completes p.undoSteps := by
  obtain ⟨plan, newTrafficLimit, read, version, limit, hostReserved, incusApplied, committed,
    stage⟩ := p
  cases hostReserved <;> cases incusApplied <;>
    simp_all [PlanCall.Completes, PlanCall.undoSteps, PlanCall.undoes, PlanCall.undone,
      PlanCall.Whole]

/-- The stores move by what the flags say. -/
def PlanMoves (w : DeliveryWorld) (p : PlanCall) (w' : DeliveryWorld) (p' : PlanCall) : Prop :=
  ∀ g, w'.level g = w.level g + (p'.part g - p.part g)

theorem planMoves_at (w : DeliveryWorld) (p : PlanCall) (stage : PlanCallStage) :
    PlanMoves w p w (p.at_ stage) := by
  intro g
  have hpart : (p.at_ stage).part g = p.part g := by cases g <;> rfl
  simp [hpart]

theorem part_hostReserved (p : PlanCall) (stage : PlanCallStage) (b : Bool) (g : Gauge) :
    ({ p with hostReserved := b, stage } : PlanCall).part g - p.part g = match g with
      | .host _ => (if b then p.adds g else 0) - if p.hostReserved then p.adds g else 0
      | _ => 0 := by
  cases g <;> first | rfl | exact sub_self _

theorem part_incusApplied (p : PlanCall) (stage : PlanCallStage) (b : Bool) (g : Gauge) :
    ({ p with incusApplied := b, stage } : PlanCall).part g - p.part g = match g with
      | .incus _ => (if b then p.adds g else 0) - if p.incusApplied then p.adds g else 0
      | _ => 0 := by
  cases g <;> first | rfl | exact sub_self _

theorem part_committed (p : PlanCall) (stage : PlanCallStage) (b : Bool) (g : Gauge) :
    ({ p with committed := b, stage } : PlanCall).part g - p.part g = match g with
      | .row _ | .traffic => (if b then p.adds g else 0) - if p.committed then p.adds g else 0
      | _ => 0 := by
  cases g <;> first | rfl | exact sub_self _ | simp [PlanCall.part, PlanCall.adds]

/-- From the limits of the row to those of the plan. -/
theorem get_planLimits (p : PlanCall) (column : HostColumn) :
    (⟨p.plan.cpu, p.plan.memory, p.plan.disk⟩ : IncusLimits).resources.get column =
      p.read.incusLimits.resources.get column + p.adds (.incus column) := by
  cases column <;> simp [IncusLimits.resources, HostedInstance.incusLimits, Resources.get,
    PlanCall.adds, PlanCall.delta, HostedInstance.planDelta]

theorem planFail_moves (w : DeliveryWorld) (p : PlanCall) (h : p.committed = false) :
    PlanMoves w p w p.fail ∧ p.fail.StageOk :=
  ⟨planMoves_at w p _, h, plan_completes_at (plan_completes_undoSteps h)⟩

theorem undoPlan_moves {step : PlanUndo} (hdo : p.undoes step = true)
    (hincus : step = .patchBack → w.incus = ⟨p.plan.cpu, p.plan.memory, p.plan.disk⟩) :
    PlanMoves w p (w.undoPlan p step) ((p.undone step).at_ stage) := by
  intro g
  cases step with
  | patchBack =>
      have happlied : p.incusApplied = true := hdo
      have hpart : ((p.undone .patchBack).at_ stage).part g - p.part g = _ :=
        part_incusApplied p stage false g
      rw [hpart]
      cases g <;> simp [DeliveryWorld.level, DeliveryWorld.undoPlan, happlied, hincus,
        get_planLimits]
  | adjustBack =>
      have hreserved : p.hostReserved = true := hdo
      have hlevel : (w.undoPlan p .adjustBack).level g = _ := level_adjust (-p.delta) g
      have hpart : ((p.undone .adjustBack).at_ stage).part g - p.part g = _ :=
        part_hostReserved p stage false g
      rw [hlevel, hpart]
      cases g <;> simp [hreserved, PlanCall.adds]

/-- A commit moves the row by the difference to what the change has read. -/
theorem commit_moves (hrow : w.row = p.read)
    (hlimit : w.monthlyTrafficLimit = p.monthlyTrafficLimit)
    (hcommitted : p.committed = false) :
    PlanMoves w p
      { w with
        row := w.row.changedPlan p.plan
        monthlyTrafficLimit := some p.newTrafficLimit
        version := w.version + 1 }
      { p with committed := true, stage } := by
  intro g
  have hdelta := p.read.resources_changedPlan p.plan
  have hget : ∀ column, (p.read.changedPlan p.plan).resources.get column =
      p.read.resources.get column + p.delta.get column := fun column => by
    rw [PlanCall.delta, ← hdelta, get_sub]
    ring
  rw [part_committed p stage true g]
  cases g <;> simp [DeliveryWorld.level, hrow, hlimit, hcommitted, hget, PlanCall.adds]

/-- One statement of a change of plan. -/
theorem planNext_moves (hs : p.StageOk) (hw : p.writesCurrent w ok = true)
    (h : w.planNext p ok = some (w', p')) : PlanMoves w p w' p' ∧ p'.StageOk := by
  unfold DeliveryWorld.planNext at h
  unfold PlanCall.StageOk at hs
  split at h <;> rename_i hstage <;> simp only [hstage] at hs
  · split at h
    · cases h
      exact ⟨planMoves_at w p _, hs⟩
    · cases h
      exact planFail_moves w p hs.1
  · obtain ⟨hcommitted, happlied, hreserved⟩ := hs
    split at h
    · rename_i hdelta
      cases h
      exact ⟨planMoves_at w p _, hcommitted, happlied, .inr hdelta⟩
    · split at h
      · cases h
        refine ⟨fun g => ?_, hcommitted, happlied, .inl rfl⟩
        rw [level_adjust p.delta g, part_hostReserved p .patching true g]
        cases g <;> simp [hreserved, PlanCall.adds]
      · cases h
        exact planFail_moves w p hcommitted
  · obtain ⟨hcommitted, happlied, hreserved⟩ := hs
    split at h
    · rename_i hok
      cases h
      have hincus : w.incus = p.read.incusLimits := by
        simpa [PlanCall.writesCurrent, hstage, hok] using hw
      refine ⟨fun g => ?_, hcommitted, rfl, hreserved⟩
      rw [part_incusApplied p .committing true g]
      cases g <;> simp [DeliveryWorld.level, happlied, hincus, get_planLimits]
    · cases h
      exact planFail_moves w p hcommitted
  · obtain ⟨hcommitted, happlied, hreserved⟩ := hs
    split at h
    · rename_i hok
      cases h
      obtain ⟨hrow, hlimit⟩ : w.row = p.read ∧ w.monthlyTrafficLimit = p.monthlyTrafficLimit := by
        simpa [PlanCall.writesCurrent, hstage, hok] using hw
      exact ⟨commit_moves hrow hlimit hcommitted, happlied, hreserved⟩
    · cases h
      exact planFail_moves w p hcommitted
  · cases h
    exact ⟨planMoves_at w p _, hs.2⟩
  · rename_i step steps
    cases h
    obtain ⟨hcommitted, hdo, hrest⟩ := hs
    refine ⟨undoPlan_moves hdo ?_, ?_, plan_completes_at hrest⟩
    · rintro rfl
      simpa [PlanCall.writesCurrent, hstage] using hw
    · cases step <;> exact hcommitted
  · cases h

end Plans

/-! ## Runs -/

section Calls

variable {w w' : DeliveryWorld} {d d' : CodeDelivery} {p p' : PlanCall} {ok : Bool}

theorem calls_applyCode (w : DeliveryWorld) (d : CodeDelivery) :
    (w.applyCode d).calls = w.calls := by
  unfold DeliveryWorld.applyCode
  split <;> rfl

theorem calls_unapplyCode (w : DeliveryWorld) (d : CodeDelivery) :
    (w.unapplyCode d).calls = w.calls := by
  unfold DeliveryWorld.unapplyCode
  split <;> rfl

theorem calls_patchField (w : DeliveryWorld) (d : CodeDelivery) (value : RedeemCodeType → ℕ) :
    (w.patchField d value).calls = w.calls := by
  unfold DeliveryWorld.patchField
  split <;> rfl

theorem calls_undo (w : DeliveryWorld) (d : CodeDelivery) (step : DeliveryUndo) :
    (w.undo d step).calls = w.calls := by
  cases step with
  | patchBack => exact calls_patchField w d _
  | updateBack => exact calls_unapplyCode w d
  | adjustBack => rfl
  | updateForward => exact calls_applyCode w d
  | releaseCode =>
      show (w.releaseCode d).calls = w.calls
      unfold DeliveryWorld.releaseCode
      dsimp only
      split <;> rfl

theorem deliverNext_calls (h : w.deliverNext d ok = some (w', d')) : w'.calls = w.calls := by
  unfold DeliveryWorld.deliverNext at h
  split at h
  · split at h <;> cases h <;> rfl
  · split at h <;> cases h <;> rfl
  · split at h <;> cases h <;> rfl
  · split at h
    · cases h
      exact calls_patchField w d _
    · cases h
      rfl
  · split at h
    · cases h
      exact calls_applyCode w d
    · cases h
      rfl
  · cases h
    rfl
  · cases h
    rfl
  · cases h
    exact calls_undo w d _
  · cases h

theorem calls_undoPlan (w : DeliveryWorld) (p : PlanCall) (step : PlanUndo) :
    (w.undoPlan p step).calls = w.calls := by
  cases step <;> rfl

theorem planNext_calls (h : w.planNext p ok = some (w', p')) : w'.calls = w.calls := by
  unfold DeliveryWorld.planNext at h
  split at h
  · split at h <;> cases h <;> rfl
  · split at h
    · cases h
      rfl
    · split at h <;> cases h <;> rfl
  · split at h <;> cases h <;> rfl
  · split at h <;> cases h <;> rfl
  · cases h
    rfl
  · cases h
    exact calls_undoPlan w p _
  · cases h

end Calls

def InstanceCall.StageOk : InstanceCall → Prop
  | .deliver d => d.StageOk
  | .changePlan p => p.StageOk

/-- The stores have moved by what the flags of the calls say. -/
structure DeliveryInv (w₀ w : DeliveryWorld) : Prop where
  levels : ∀ g, w.level g = w₀.level g + (w.calls.map (·.part g)).sum
  stages : ∀ call ∈ w.calls, call.StageOk

section Runs

variable {w₀ w w' : DeliveryWorld} {k : ℕ} {call call' : InstanceCall} {d : CodeDelivery}

theorem sum_parts_set {calls : List InstanceCall} (f : InstanceCall → ℤ)
    (h : calls[k]? = some call) (call' : InstanceCall) :
    ((calls.set k call').map f).sum = (calls.map f).sum + (f call' - f call) := by
  induction calls generalizing k with
  | nil => cases h
  | cons first calls ih =>
      cases k with
      | zero =>
          obtain rfl := Option.some.inj h
          simp only [List.set_cons_zero, List.map_cons, List.sum_cons]
          omega
      | succ k =>
          have hrest := ih h
          simp only [List.set_cons_succ, List.map_cons, List.sum_cons]
          omega

/-- A call that takes a step moves the stores by what it says then. -/
theorem DeliveryInv.advance (hi : DeliveryInv w₀ w) (hcall : w.calls[k]? = some call)
    (hcalls : w'.calls = w.calls)
    (hmoves : ∀ g, w'.level g = w.level g + (call'.part g - call.part g))
    (hstage : call'.StageOk) : DeliveryInv w₀ (w'.setCall k call') where
  levels := by
    intro g
    show w'.level g = w₀.level g + ((w'.calls.set k call').map (·.part g)).sum
    rw [hcalls, sum_parts_set _ hcall, hmoves g, hi.levels g, add_assoc]
  stages := by
    intro c hc
    rcases List.mem_or_eq_of_mem_set hc with hc | rfl
    · exact hi.stages c (hcalls ▸ hc)
    · exact hstage

/-- A new call has moved nothing. -/
theorem DeliveryInv.begin (hi : DeliveryInv w₀ w) (hpart : ∀ g, call.part g = 0)
    (hstage : call.StageOk) : DeliveryInv w₀ { w with calls := w.calls ++ [call] } where
  levels := by
    intro g
    show w.level g = _
    rw [List.map_append, List.sum_append, List.map_singleton, List.sum_singleton, hpart g, add_zero]
    exact hi.levels g
  stages := by
    intro c hc
    rcases List.mem_append.mp hc with hc | hc
    · exact hi.stages c hc
    · exact List.mem_singleton.mp hc ▸ hstage

/-- What counts uses is never taken below nothing. -/
theorem uses_nonneg (hg : (∃ id, g = .usedCount id) ∨ ∃ id userId, g = .usages id userId)
    (call : InstanceCall) : 0 ≤ call.part g := by
  obtain ⟨id, rfl⟩ | ⟨id, userId, rfl⟩ := hg
  · cases call with
    | deliver d =>
        simp only [InstanceCall.part, CodeDelivery.part, CodeDelivery.adds]
        split_ifs <;> simp
    | changePlan p => simp [InstanceCall.part, PlanCall.part, PlanCall.adds]
  · cases call with
    | deliver d =>
        simp only [InstanceCall.part, CodeDelivery.part, CodeDelivery.adds]
        split_ifs <;> simp
    | changePlan p => simp [InstanceCall.part, PlanCall.part, PlanCall.adds]

/-- A code that a delivery has consumed is counted, with its usage. -/
theorem DeliveryInv.consumed (hi : DeliveryInv w₀ w) (hcall : w.calls[k]? = some (.deliver d))
    (hconsumed : d.codeConsumed = true) : 0 < w.level (.usedCount d.redeemCodeId) ∧
      0 < w.level (.usages d.redeemCodeId d.userId) := by
  have hmem : InstanceCall.deliver d ∈ w.calls := List.mem_of_getElem? hcall
  have hle : ∀ g, (∃ id, g = .usedCount id) ∨ (∃ id userId, g = .usages id userId) →
      (InstanceCall.deliver d).part g ≤ (w.calls.map (·.part g)).sum := fun g hg =>
    List.single_le_sum (by simpa using fun c _ => uses_nonneg hg c) _
      (List.mem_map_of_mem (f := (·.part g)) hmem)
  constructor
  · have hone : (InstanceCall.deliver d).part (.usedCount d.redeemCodeId) = 1 := by
      simp [InstanceCall.part, CodeDelivery.part, CodeDelivery.flag, CodeDelivery.adds, hconsumed]
    have hstart : 0 ≤ w₀.level (.usedCount d.redeemCodeId) := Int.natCast_nonneg _
    have hsum := hle (.usedCount d.redeemCodeId) (.inl ⟨_, rfl⟩)
    have hlevel := hi.levels (.usedCount d.redeemCodeId)
    omega
  · have hone : (InstanceCall.deliver d).part (.usages d.redeemCodeId d.userId) = 1 := by
      simp [InstanceCall.part, CodeDelivery.part, CodeDelivery.flag, CodeDelivery.adds, hconsumed]
    have hstart : 0 ≤ w₀.level (.usages d.redeemCodeId d.userId) := Int.natCast_nonneg _
    have hsum := hle (.usages d.redeemCodeId d.userId) (.inr ⟨_, _, rfl⟩)
    have hlevel := hi.levels (.usages d.redeemCodeId d.userId)
    omega

theorem deliveryStep_inv {e : DeliveryEvent} (hi : DeliveryInv w₀ w)
    (hok : nothingOverwritten w e = true) (h : deliveryStep w e = some w') : DeliveryInv w₀ w' := by
  cases e with
  | redeem redeemCodeId userId batchId codeType codeValue =>
      simp only [deliveryStep, Option.ite_none_right_eq_some, Option.some.injEq] at h
      obtain ⟨-, rfl⟩ := h
      refine hi.begin (fun g => ?_) ⟨rfl, rfl, rfl, rfl⟩
      cases g <;> rfl
  | changePlan plan newTrafficLimit =>
      simp only [deliveryStep, Option.ite_none_right_eq_some, Option.some.injEq] at h
      obtain ⟨-, rfl⟩ := h
      refine hi.begin (fun g => ?_) ⟨rfl, rfl, rfl⟩
      cases g <;> rfl
  | next k ok =>
      simp only [deliveryStep] at h
      simp only [nothingOverwritten] at hok
      split at h
      · cases h
      · rename_i d hcall
        obtain ⟨⟨w₁, d'⟩, hnext, rfl⟩ := Option.map_eq_some_iff.mp h
        simp only [hcall] at hok
        have hstages : d.StageOk := hi.stages _ (List.mem_of_getElem? hcall)
        obtain ⟨hmoves, hstage⟩ := deliverNext_moves hstages hok (hi.consumed hcall) hnext
        exact hi.advance hcall (deliverNext_calls hnext) hmoves hstage
      · rename_i p hcall
        obtain ⟨⟨w₁, p'⟩, hnext, rfl⟩ := Option.map_eq_some_iff.mp h
        simp only [hcall] at hok
        have hstages : p.StageOk := hi.stages _ (List.mem_of_getElem? hcall)
        obtain ⟨hmoves, hstage⟩ := planNext_moves hstages hok hnext
        exact hi.advance hcall (planNext_calls hnext) hmoves hstage

/-- A call that is over has moved all of its own or nothing. -/
theorem part_eq_moved (hstage : call.StageOk) (hover : call.isOver = true) (g : Gauge) :
    call.part g = call.moved g := by
  cases call with
  | deliver d =>
      have hover : d.stage = .over := by simpa [InstanceCall.isOver] using hover
      obtain ⟨hdatabase, hfield⟩ : d.Whole := by
        simpa [InstanceCall.StageOk, CodeDelivery.StageOk, hover] using hstage
      have hnone : d.codeType.hostField.isSome = false → d.amount = 0 := fun h =>
        amount_none (Option.isSome_eq_false_iff.mp h |> Option.isNone_iff_eq_none.mp)
      have hflag : d.flag g = d.codeConsumed ∨ d.adds g = 0 := by
        cases hsome : d.codeType.hostField.isSome with
        | true =>
            obtain ⟨hhost, hremote⟩ := hfield hsome
            cases g <;> simp [CodeDelivery.flag, hdatabase, hhost, hremote]
        | false => cases g <;> simp [CodeDelivery.flag, CodeDelivery.adds, hdatabase, hnone hsome]
      show (if d.flag g then d.adds g else 0) = if d.codeConsumed then d.adds g else 0
      rcases hflag with hflag | hnothing
      · rw [hflag]
      · simp [hnothing]
  | changePlan p =>
      have hover : p.stage = .over := by simpa [InstanceCall.isOver] using hover
      obtain ⟨happlied, hreserved⟩ : p.Whole := by
        simpa [InstanceCall.StageOk, PlanCall.StageOk, hover] using hstage
      have hflag : p.flag g = p.committed ∨ p.adds g = 0 := by
        rcases hreserved with hreserved | hdelta
        · cases g <;> simp [PlanCall.flag, happlied, hreserved]
        · cases g <;> simp [PlanCall.flag, PlanCall.adds, happlied, hdelta]
      show (if p.flag g then p.adds g else 0) = if p.committed then p.adds g else 0
      rcases hflag with hflag | hnothing
      · rw [hflag]
      · simp [hnothing]

theorem DeliveryInv.deliveriesWhole (hi : DeliveryInv w₀ w) : DeliveriesWhole w₀ w := by
  have hwhole : (∀ call ∈ w.calls, call.isOver = true) →
      ∀ g, w.level g = w₀.level g + (w.calls.map (·.moved g)).sum := fun hover g => by
    rw [hi.levels g, List.map_congr_left fun c hc =>
      part_eq_moved (hi.stages c hc) (hover c hc) g]
  refine ⟨hwhole, fun hover column => ?_⟩
  have hsame : ∀ call : InstanceCall, call.moved (.host column) = call.moved (.row column) := by
    rintro (d | p) <;> rfl
  rw [hwhole hover, hwhole hover, List.map_congr_left fun c _ => hsame c]
  ring

theorem deliveryInv_start (hstart : w₀.calls = []) : DeliveryInv w₀ w₀ where
  levels g := by simp [hstart]
  stages := by simp [hstart]

/-- Where no step writes over what it does not know of, in any order and whatever fails, each
delivery and each change of plan is all or nothing, and the host follows the row. -/
theorem deliveries_whole (hstart : w₀.calls = [])
    (h : Machine.Reach deliveryStep (fun w e => nothingOverwritten w e = true) w₀ w) :
    DeliveriesWhole w₀ w :=
  have hi : DeliveryInv w₀ w :=
    h.invariant (deliveryInv_start hstart) fun hi hok hs => deliveryStep_inv hi hok hs
  hi.deliveriesWhole

end Runs

def deliveryStart : DeliveryWorld where
  row := { id := 1, userId := 1, status := .running, cpu := 100, memory := 512, disk := 10
           portLimit := some 4 }
  monthlyTrafficLimit := none
  host := { cpuAllowanceMax := some 1000, memoryMax := some 10000, natPortStart := some 1
            natPortEnd := some 1000, used := ⟨100, 512, 10, 5⟩ }
  incus := ⟨100, 512, 10⟩
  codes := fun _ => { maxUses := 1 }

/-- A code of half a core, whose success cannot be logged, and the code again. -/
def deliveredRun : List DeliveryEvent :=
  .redeem 7 1 none .c 50 :: (List.replicate 5 (.next 0 true) ++ .next 0 false ::
    List.replicate 5 (.next 0 true) ++ .redeem 7 1 none .c 50 :: List.replicate 6 (.next 1 true))

theorem deliveries_whole_delivered : ∃ w, w.calls.all InstanceCall.isOver = true ∧
    w.row.cpu = 150 ∧ DeliveriesWhole deliveryStart w := by
  have hend : (Machine.exec (Machine.guarded deliveryStep nothingOverwritten) deliveryStart
      deliveredRun).map (fun w => (w.calls.all InstanceCall.isOver, w.row.cpu)) =
        some (true, 150) := by decide +kernel
  obtain ⟨w, hrun, hw⟩ := Option.map_eq_some_iff.mp hend
  exact ⟨w, congrArg Prod.fst hw, congrArg Prod.snd hw,
    deliveries_whole rfl (Machine.reach_of_exec_guarded hrun)⟩

/-- A change to a plan of two cores begins after the claim of a delivery, and commits after its
end. -/
def overwrittenRun : List DeliveryEvent :=
  [.redeem 7 1 none .c 50, .next 0 true, .next 0 true,
    .changePlan { cpu := 200, memory := 512, disk := 10, portLimit := 4 } 0] ++
  List.replicate 4 (.next 0 true) ++ List.replicate 4 (.next 1 true)

/-- Both calls succeed, the code is gone from the row, and the counter of the host has it. -/
theorem delivery_lost_to_plan_change : ∃ w,
    Machine.Reach deliveryStep Machine.free deliveryStart w ∧
      w.calls.all (fun call => call.isOver && call.succeeded) = true ∧
      w.row.cpu = 200 ∧ w.host.used.cpu = 250 ∧ ¬DeliveriesWhole deliveryStart w := by
  have hend : (Machine.exec deliveryStep deliveryStart overwrittenRun).map (fun w =>
      (w.calls.all (fun call => call.isOver && call.succeeded), w.row.cpu, w.host.used.cpu)) =
        some (true, 200, 250) := by decide +kernel
  obtain ⟨w, hrun, hw⟩ := Option.map_eq_some_iff.mp hend
  obtain ⟨hdone, hrow, hhost⟩ : w.calls.all (fun call => call.isOver && call.succeeded) = true ∧
      w.row.cpu = 200 ∧ w.host.used.cpu = 250 := by
    simpa only [Prod.mk.injEq] using hw
  refine ⟨w, Machine.reach_of_exec hrun, hdone, hrow, hhost, fun hwhole => ?_⟩
  have hover : ∀ call ∈ w.calls, call.isOver = true := fun call hcall =>
    (Bool.and_eq_true_iff.mp (List.all_eq_true.mp hdone call hcall)).1
  have hcpu := hwhole.follows hover .cpu
  simp [DeliveryWorld.level, Resources.get, HostedInstance.resources, hrow, hhost,
    deliveryStart] at hcpu

end Incudal
