/-
# `SharedPackages` — how many instances of a shared package a user may have

A user who does not own a package may have as many instances of it as its limit
says.  The purchase counts the user's instances inside its transaction, but only
those that are running or stopped: an instance that is being created, suspended
or in error is not counted, and later becomes `running` or `stopped` without
any further look at the limit.

`countsLive` is the condition on a step that it would also pass a check that
counts every instance that is not deleted; under it the limit holds in every
state (`shared_limits_kept`).
-/
import Incudal.Deletion
import Incudal.ExpiryDeletion
import Incudal.Lib.Machine
import Incudal.Provisioning
import Incudal.ProvisionRuns
import Mathlib

namespace Incudal

/-! ## Packages -/

/-- The columns of `packages` that decide who may use it. -/
structure SharedPackage where
  userId : ℕ
  active : Bool := true
  globalShared : Bool := true
  globalMaxInstances : Option ℤ := none
deriving DecidableEq, Repr

def normalizeGlobalMaxInstances (value : Option ℤ) : ℕ :=
  match value with
  | some n => if 1 ≤ n ∧ n ≤ 5 then n.toNat else 1
  | none => 1

structure SharedWorld where
  db : Db
  env : Env
  nextInstanceId : ℕ
  packages : ℕ → Option SharedPackage
  /-- `isUserBlockedByHoster`, and the rows of `package_shares` -/
  blocked : ℕ → ℕ → Bool := fun _ _ => false
  sharedTo : ℕ → ℕ → Bool := fun _ _ => false

namespace SharedWorld

variable (w : SharedWorld)

/-- The user's instances of the package in the given statuses. -/
def instancesOf (packageId userId : ℕ) (statuses : InstanceStatus → Bool) : Finset ℕ :=
  (Finset.range w.nextInstanceId).filter fun id => (w.db.instances id).any fun inst =>
    inst.userId == userId && inst.packageId == some packageId && statuses inst.status

/-- `getSharedPackageUsage`; its totals of CPU and memory are compared only under a quota
multiplier, which `getPackageShareForUser` never returns. -/
def getSharedPackageUsage (packageId userId : ℕ) : ℕ :=
  (w.instancesOf packageId userId fun status => status == .running || status == .stopped).card

/-- `getPackageShareForUser`: the limit on the instances. -/
def getPackageShareForUser (packageId userId : ℕ) : Option ℕ :=
  match w.packages packageId with
  | none => none
  | some pkg =>
      if pkg.globalShared && pkg.userId != userId then
        if w.blocked pkg.userId userId then none
        else some (normalizeGlobalMaxInstances pkg.globalMaxInstances)
      else none

def canUserAccessPackage (userId packageId : ℕ) : Bool :=
  match w.packages packageId with
  | none => false
  | some pkg =>
      if pkg.userId == userId then true
      else if w.blocked pkg.userId userId then false
      else if !pkg.active then false
      else if pkg.globalShared then true
      else w.sharedTo packageId userId

/-- The columns of a new instance that the plan and the host decide. -/
structure Terms where
  hostId : ℕ
  billingMode : InstanceBillingMode := .package
  packagePlanId : Option ℕ := none
  billingPrice : Option Cents := none
  billingCycle : Option ℕ := none
  expiresAt : Option Time := none
deriving DecidableEq, Repr

/-- `instance.create`. -/
def createRow (packageId userId : ℕ) (terms : Terms) : SharedWorld :=
  { w with
      db := w.db.setInstance w.nextInstanceId
        { userId
          hostId := terms.hostId
          status := .creating
          billingMode := terms.billingMode
          packageId := some packageId
          packagePlanId := terms.packagePlanId
          billingPrice := terms.billingPrice
          billingCycle := terms.billingCycle
          expiresAt := terms.expiresAt }
      nextInstanceId := w.nextInstanceId + 1 }

/-- A request to create an instance, as far as access and the limit decide it; what else may
refuse it (the host's resources, the balance) changes no other instance. -/
def createInstance (userId packageId : ℕ) (terms : Terms) : Except String SharedWorld :=
  match w.packages packageId with
  | none => .error "PACKAGE_UNAVAILABLE"
  | some pkg =>
      if !pkg.active then .error "PACKAGE_UNAVAILABLE"
      else if !w.canUserAccessPackage userId packageId then .error "FORBIDDEN"
      else if pkg.userId == userId then .ok (w.createRow packageId userId terms)
      else
        match w.getPackageShareForUser packageId userId with
        | none => .ok (w.createRow packageId userId terms)
        | some maxInstances =>
            let usage := w.getSharedPackageUsage packageId userId
            if maxInstances = 0 then
              .error "SHARE_QUOTA_INSTANCES_EXCEEDED: 该套餐的实例数量限制为 0，不允许创建实例"
            else if maxInstances ≤ usage then
              .error s!"SHARE_QUOTA_INSTANCES_EXCEEDED: 已开通 {usage}/{maxInstances} 台"
            else .ok (w.createRow packageId userId terms)

end SharedWorld

/-! ## Statements on a row -/

/-- The claim in `failCreatingInstanceAndRollbackResources`. -/
def failRetriedProvision (inst : Instance) : Option Instance :=
  if inst.status = .creating then some { inst with status := .error } else none

/-- `updateInstanceStatus`, with which the workers start and stop instances: only a deletion is
written over a deletion. -/
def updateInstanceStatus (status : InstanceStatus) (inst : Instance) : Option Instance :=
  if status = .deleted ∨ inst.status ≠ .deleted then some { inst with status } else none

/-- `suspendInstanceManually`: the administrator's suspension. -/
def suspendInstanceManually (reason : String) (inst : Instance) : Option Instance :=
  if inst.deletionClaimed then none
  else some { inst with
    status := .suspended, suspendReason := some reason, version := inst.version + 1 }

/-- `suspendInstance`, of the owner of the host: it takes the row as it is. -/
def suspendInstance (reason : String) (inst : Instance) : Option Instance :=
  some { inst with status := .suspended, suspendReason := some reason }

/-- `unsuspendInstance`: it takes the row as it is. -/
def unsuspendInstance (inst : Instance) : Option Instance :=
  some { inst with status := .stopped, suspendReason := none }

/-- The suspensions of the two billing jobs: by the hour, and for traffic. -/
def suspendUnpaid (reason : String) (inst : Instance) : Option Instance :=
  if inst.status = .running ∨ inst.status = .stopped then
    some { inst with
      status := .suspended, suspendReason := some reason, version := inst.version + 1 }
  else none

/-- The traffic debt is paid. -/
def liftTrafficSuspension (expectedVersion : ℕ) (inst : Instance) : Option Instance :=
  if inst.status = .suspended ∧
      inst.suspendReason = some "traffic_billing_insufficient_balance" ∧
      inst.version = expectedVersion then
    some { inst with status := .stopped, suspendReason := none, version := inst.version + 1 }
  else none

/-- The update of a renewal. -/
def renewInstance (expectedVersion : ℕ) (newExpiresAt : Time) (inst : Instance) :
    Option Instance :=
  if inst.version = expectedVersion ∧ inst.isRenewable = true then some (inst.renewed newExpiresAt)
  else none

/-! ## Steps -/

/-- What happens to the instances. -/
inductive SharedEvent
  | createInstance (userId packageId : ℕ) (terms : SharedWorld.Terms)
  | markRunning (id : ℕ)
  | markCreatingInstanceProvisioned (id : ℕ) (status : ProvisionedStatus)
  | claimCreatingInstanceForCleanup (id : ℕ) (reclaim : Bool)
  | failCreatingInstanceAndRefund (id : ℕ)
  | failRetriedProvision (id : ℕ)
  | updateInstanceStatus (id : ℕ) (status : InstanceStatus)
  | suspendInstanceByExpiry (id : ℕ) (now : Time)
  | suspendUnpaid (id : ℕ) (reason : String)
  | suspendInstanceManually (id : ℕ) (reason : String)
  | suspendInstance (id : ℕ) (reason : String)
  | unsuspendInstance (id : ℕ)
  | liftTrafficSuspension (id expectedVersion : ℕ)
  | renew (id expectedVersion : ℕ) (newExpiresAt : Time)
  | claimForDeletion (id : ℕ) (currentStatus : InstanceStatus)
      (deletionBillingMode : Option DeletionBillingMode) (feeWaiver : Bool)
  | restoreClaimed (id : ℕ) (originalStatus : InstanceStatus)
  | claimExpiredInstanceForDeletion (id : ℕ) (suspendedAt : Option Time) (expectedVersion : ℕ)
      (expectedSuspendedAt : Time)
  | restoreExpiredInstanceDeletionClaim (id claimVersion : ℕ)
  | deleteRow (id : ℕ)
deriving DecidableEq, Repr

namespace SharedWorld

/-- One row is rewritten. -/
def write (w : SharedWorld) (id : ℕ) (f : Instance → Option Instance) : Option SharedWorld :=
  match w.db.instances id with
  | none => none
  | some inst =>
      match f inst with
      | none => none
      | some inst' => some { w with db := w.db.setInstance id inst' }

end SharedWorld

def sharedStep (w : SharedWorld) : SharedEvent → Option SharedWorld
  | .createInstance userId packageId terms => (w.createInstance userId packageId terms).toOption
  | .markRunning id => some { w with db := (markRunning w.db id).1 }
  | .markCreatingInstanceProvisioned id status =>
      some { w with db := (markCreatingInstanceProvisioned w.db id status).1 }
  | .claimCreatingInstanceForCleanup id reclaim =>
      some { w with db := (claimCreatingInstanceForCleanup w.db id reclaim).1 }
  | .failCreatingInstanceAndRefund id =>
      match failCreatingInstanceAndRefund w.db w.env id with
      | .error _ => none
      | .ok (db, _) => some { w with db }
  | .failRetriedProvision id => w.write id failRetriedProvision
  | .updateInstanceStatus id status => w.write id (updateInstanceStatus status)
  | .suspendInstanceByExpiry id now => w.write id (suspendInstanceByExpiry · now)
  | .suspendUnpaid id reason => w.write id (suspendUnpaid reason)
  | .suspendInstanceManually id reason => w.write id (suspendInstanceManually reason)
  | .suspendInstance id reason => w.write id (suspendInstance reason)
  | .unsuspendInstance id => w.write id unsuspendInstance
  | .liftTrafficSuspension id expectedVersion => w.write id (liftTrafficSuspension expectedVersion)
  | .renew id expectedVersion newExpiresAt => w.write id (renewInstance expectedVersion newExpiresAt)
  | .claimForDeletion id currentStatus deletionBillingMode feeWaiver =>
      some { w with
        db := (claimForDeletion w.db id currentStatus deletionBillingMode feeWaiver).1 }
  | .restoreClaimed id originalStatus =>
      some { w with db := restoreClaimed w.db id originalStatus }
  | .claimExpiredInstanceForDeletion id suspendedAt expectedVersion expectedSuspendedAt =>
      w.write id
        (claimExpiredInstanceForDeletion · suspendedAt expectedVersion expectedSuspendedAt)
  | .restoreExpiredInstanceDeletionClaim id claimVersion =>
      w.write id (restoreExpiredInstanceDeletionClaim · claimVersion)
  | .deleteRow id =>
      some { w with db := { w.db with instances := Function.update w.db.instances id none } }

/-! ## The limit -/

/-- No user has more running or stopped instances of a shared package than its limit. -/
def SharedWorld.LimitsKept (w : SharedWorld) : Prop :=
  ∀ packageId pkg, w.packages packageId = some pkg → pkg.globalShared = true →
    ∀ userId, userId ≠ pkg.userId →
      w.getSharedPackageUsage packageId userId ≤ normalizeGlobalMaxInstances pkg.globalMaxInstances

namespace SharedWorld

/-- The user's instances of the package that are not deleted. -/
def liveCount (w : SharedWorld) (packageId userId : ℕ) : ℕ :=
  (w.instancesOf packageId userId (· != .deleted)).card

/-- One more instance that is not deleted would be within the limit. -/
def roomFor (w : SharedWorld) (packageId userId : ℕ) : Bool :=
  (w.packages packageId).all fun pkg => !pkg.globalShared || pkg.userId == userId ||
    decide (w.liveCount packageId userId < normalizeGlobalMaxInstances pkg.globalMaxInstances)

/-- A row that is deleted may only come back where there is room for it. -/
def mayReturn (w : SharedWorld) (id : ℕ) : Bool :=
  (w.db.instances id).all fun inst => inst.status != .deleted ||
    inst.packageId.all fun packageId => w.roomFor packageId inst.userId

end SharedWorld

/-- The row that a step writes even if it is deleted. -/
def SharedEvent.revives : SharedEvent → Option ℕ
  | .suspendInstanceManually id _ | .suspendInstance id _ | .unsuspendInstance id
  | .restoreClaimed id _ | .restoreExpiredInstanceDeletionClaim id _ => some id
  | _ => none

/-- The limit is kept when every instance that is not deleted is counted: by a purchase, and by
a step that brings a deleted row back. -/
def countsLive (w : SharedWorld) (event : SharedEvent) : Bool :=
  match event with
  | .createInstance userId packageId _ => w.roomFor packageId userId
  | _ => event.revives.all w.mayReturn

/-! ## What a step does to the rows -/

/-- At most the row `id` changes; it keeps its user and package, and it is not brought back from
its deletion, unless `returns`. -/
structure RowWrite (returns : Prop) (db db' : Db) (id : ℕ) : Prop where
  others : ∀ j, j ≠ id → db'.instances j = db.instances j
  row : ∀ inst', db'.instances id = some inst' → ∃ inst, db.instances id = some inst ∧
    inst'.userId = inst.userId ∧ inst'.packageId = inst.packageId ∧
    (inst.status = .deleted → inst'.status = .deleted ∨ returns)

section Writes

variable {returns : Prop} {db db' : Db} {id : ℕ} {inst inst' : Instance}

theorem RowWrite.mono {returns' : Prop} (h : RowWrite returns db db' id)
    (hreturns : returns → returns') : RowWrite returns' db db' id where
  others := h.others
  row := by
    intro inst' hrow'
    obtain ⟨inst, hrow, huser, hpackage, hstatus⟩ := h.row inst' hrow'
    exact ⟨inst, hrow, huser, hpackage, fun hdeleted => (hstatus hdeleted).imp_right hreturns⟩

theorem RowWrite.refl : RowWrite returns db db id where
  others := fun _ _ => rfl
  row := fun inst' hrow' => ⟨inst', hrow', rfl, rfl, .inl⟩

/-- One row is replaced. -/
theorem RowWrite.set (hrow : db.instances id = some inst) (huser : inst'.userId = inst.userId)
    (hpackage : inst'.packageId = inst.packageId)
    (hstatus : inst.status = .deleted → inst'.status = .deleted ∨ returns) :
    RowWrite returns db (db.setInstance id inst') id where
  others := fun _ hj => Function.update_of_ne hj _ _
  row := by
    intro inst'' hrow''
    rw [Db.setInstance_instances_self] at hrow''
    obtain rfl := Option.some.inj hrow''
    exact ⟨inst, hrow, huser, hpackage, hstatus⟩

/-- One row is rewritten where it stands. -/
theorem RowWrite.update {f : Instance → Instance} (huser : ∀ inst, (f inst).userId = inst.userId)
    (hpackage : ∀ inst, (f inst).packageId = inst.packageId)
    (hstatus : ∀ inst, db.instances id = some inst → inst.status = .deleted →
      (f inst).status = .deleted ∨ returns) :
    RowWrite returns db (db.updateInstance id f) id where
  others := fun _ hj => Function.update_of_ne hj _ _
  row := by
    intro inst' hrow'
    have hself : (db.updateInstance id f).instances id = (db.instances id).map f :=
      Function.update_self _ _ _
    obtain ⟨inst, hrow, rfl⟩ := Option.map_eq_some_iff.mp (hself.symm.trans hrow')
    exact ⟨inst, hrow, huser inst, hpackage inst, hstatus inst hrow⟩

/-- A statement that rewrites a row on its own terms. -/
theorem rowWrite_write {w w' : SharedWorld} {f : Instance → Option Instance}
    (hstep : w.write id f = some w')
    (hf : ∀ inst inst', f inst = some inst' → inst'.userId = inst.userId ∧
      inst'.packageId = inst.packageId ∧
      (inst.status = .deleted → inst'.status = .deleted ∨ returns)) :
    w'.packages = w.packages ∧ w'.nextInstanceId = w.nextInstanceId ∧
      RowWrite returns w.db w'.db id := by
  unfold SharedWorld.write at hstep
  cases hrow : w.db.instances id with
  | none => simp [hrow] at hstep
  | some inst =>
    simp only [hrow] at hstep
    cases hwrite : f inst with
    | none => simp [hwrite] at hstep
    | some inst' =>
      simp only [hwrite] at hstep
      obtain rfl := Option.some.inj hstep
      obtain ⟨huser, hpackage, hstatus⟩ := hf inst inst' hwrite
      exact ⟨rfl, rfl, .set hrow huser hpackage hstatus⟩

theorem rowWrite_markRunning : RowWrite False db (markRunning db id).1 id := by
  unfold markRunning
  cases hrow : db.instances id with
  | none => exact .refl
  | some inst =>
    by_cases hcreating : inst.status = .creating ∧ inst.provisioningCleanupPending = false
    · simp only [if_pos hcreating]
      refine .update (fun _ => rfl) (fun _ => rfl) fun inst' hrow' hdeleted => ?_
      obtain rfl := Option.some.inj (hrow.symm.trans hrow')
      exact absurd (hcreating.1.symm.trans hdeleted) (by decide)
    · simp only [if_neg hcreating]
      exact .refl

theorem rowWrite_markCreatingInstanceProvisioned (status : ProvisionedStatus) :
    RowWrite False db (markCreatingInstanceProvisioned db id status).1 id := by
  unfold markCreatingInstanceProvisioned
  cases hrow : db.instances id with
  | none => exact .refl
  | some inst =>
    cases hstatus : inst.status <;> simp only [hstatus]
    case creating =>
      refine .update (fun _ => rfl) (fun _ => rfl) fun inst' hrow' hdeleted => ?_
      obtain rfl := Option.some.inj (hrow.symm.trans hrow')
      exact absurd (hstatus.symm.trans hdeleted) (by decide)
    all_goals exact .refl

theorem rowWrite_claimCreatingInstanceForCleanup (reclaim : Bool) :
    RowWrite False db (claimCreatingInstanceForCleanup db id reclaim).1 id := by
  unfold claimCreatingInstanceForCleanup
  cases hrow : db.instances id with
  | none => exact .refl
  | some inst =>
    simp only
    split_ifs
    · exact .update (fun _ => rfl) (fun _ => rfl) fun _ _ => .inl
    · exact .refl

theorem rowWrite_failCreatingInstanceAndRefund {env : Env} {result : Option Units}
    (h : failCreatingInstanceAndRefund db env id = .ok (db', result)) :
    RowWrite False db db' id := by
  rcases failCreatingInstanceAndRefund_spec h with ⟨-, rfl⟩ | ⟨inst, hrow, hcreating, hrows, -⟩
  · exact .refl
  · have hwrite : RowWrite False db (db.updateInstance id fun i =>
        { i with status := .error, provisioningCleanupPending := false
                 version := i.version + 1 }) id := by
      refine .update (fun _ => rfl) (fun _ => rfl) fun inst' hrow' hdeleted => ?_
      obtain rfl := Option.some.inj (hrow.symm.trans hrow')
      exact absurd (hcreating.symm.trans hdeleted) (by decide)
    exact ⟨fun j hj => hrows ▸ hwrite.others j hj, fun inst' hrow' => hwrite.row inst' (hrows ▸ hrow')⟩

theorem rowWrite_claimForDeletion (currentStatus : InstanceStatus)
    (deletionBillingMode : Option DeletionBillingMode) (feeWaiver : Bool) :
    RowWrite False db (claimForDeletion db id currentStatus deletionBillingMode feeWaiver).1 id := by
  unfold claimForDeletion
  cases hrow : db.instances id with
  | none => exact .refl
  | some inst =>
    simp only
    split_ifs
    · exact .refl
    · exact .update (fun _ => rfl) (fun _ => rfl) fun _ _ _ => .inl rfl

theorem rowWrite_restoreClaimed (originalStatus : InstanceStatus) :
    RowWrite True db (restoreClaimed db id originalStatus) id := by
  refine .update (fun inst => ?_) (fun inst => ?_) fun _ _ _ => .inr trivial <;>
    by_cases hdeleted : inst.status = .deleted <;> simp [hdeleted]

/-- Besides the purchase every step writes one row, and only the reviving ones write over a
deletion. -/
theorem sharedStep_write {w w' : SharedWorld} {event : SharedEvent}
    (hstep : sharedStep w event = some w') :
    (∃ userId packageId terms, event = .createInstance userId packageId terms ∧
      w' = w.createRow packageId userId terms) ∨
    ∃ id, w'.packages = w.packages ∧ w'.nextInstanceId = w.nextInstanceId ∧
      RowWrite (event.revives = some id) w.db w'.db id := by
  cases event with
  | createInstance userId packageId terms =>
    refine .inl ⟨userId, packageId, terms, rfl, ?_⟩
    have hcreate := toOption_eq_some hstep
    unfold SharedWorld.createInstance at hcreate
    split at hcreate
    · cases hcreate
    · split_ifs at hcreate
      · exact (Except.ok.inj hcreate).symm
      · split at hcreate
        · exact (Except.ok.inj hcreate).symm
        · simp only at hcreate
          split_ifs at hcreate
          exact (Except.ok.inj hcreate).symm
  | markRunning id =>
    obtain rfl := Option.some.inj hstep
    exact .inr ⟨id, rfl, rfl, rowWrite_markRunning.mono (by rintro ⟨⟩)⟩
  | markCreatingInstanceProvisioned id status =>
    obtain rfl := Option.some.inj hstep
    exact .inr ⟨id, rfl, rfl, (rowWrite_markCreatingInstanceProvisioned status).mono (by rintro ⟨⟩)⟩
  | claimCreatingInstanceForCleanup id reclaim =>
    obtain rfl := Option.some.inj hstep
    exact .inr ⟨id, rfl, rfl, (rowWrite_claimCreatingInstanceForCleanup reclaim).mono (by rintro ⟨⟩)⟩
  | failCreatingInstanceAndRefund id =>
    simp only [sharedStep] at hstep
    split at hstep
    · cases hstep
    · rename_i hfail
      obtain rfl := Option.some.inj hstep
      exact .inr ⟨id, rfl, rfl, (rowWrite_failCreatingInstanceAndRefund hfail).mono (by rintro ⟨⟩)⟩
  | claimForDeletion id currentStatus deletionBillingMode feeWaiver =>
    obtain rfl := Option.some.inj hstep
    exact .inr ⟨id, rfl, rfl,
      (rowWrite_claimForDeletion currentStatus deletionBillingMode feeWaiver).mono (by rintro ⟨⟩)⟩
  | restoreClaimed id originalStatus =>
    obtain rfl := Option.some.inj hstep
    exact .inr ⟨id, rfl, rfl, (rowWrite_restoreClaimed originalStatus).mono fun _ => rfl⟩
  | deleteRow id =>
    obtain rfl := Option.some.inj hstep
    refine .inr ⟨id, rfl, rfl, fun j hj => Function.update_of_ne hj _ _, fun inst' hrow' => ?_⟩
    exact absurd ((Function.update_self id none w.db.instances).symm.trans hrow') (by simp)
  | failRetriedProvision id =>
    refine .inr ⟨id, rowWrite_write hstep fun inst inst' hwrite => ?_⟩
    unfold Incudal.failRetriedProvision at hwrite
    split_ifs at hwrite with hcreating
    obtain rfl := Option.some.inj hwrite
    exact ⟨rfl, rfl, fun hdeleted => absurd (hcreating.symm.trans hdeleted) (by decide)⟩
  | updateInstanceStatus id status =>
    refine .inr ⟨id, rowWrite_write hstep fun inst inst' hwrite => ?_⟩
    unfold Incudal.updateInstanceStatus at hwrite
    split_ifs at hwrite with hstatus
    obtain rfl := Option.some.inj hwrite
    exact ⟨rfl, rfl, fun hdeleted => .inl (hstatus.resolve_right fun hne => hne hdeleted)⟩
  | suspendInstanceByExpiry id now =>
    refine .inr ⟨id, rowWrite_write hstep fun inst inst' hwrite => ?_⟩
    unfold Incudal.suspendInstanceByExpiry at hwrite
    split_ifs at hwrite with hup
    obtain rfl := Option.some.inj hwrite
    exact ⟨rfl, rfl, fun hdeleted => by simp [hdeleted] at hup⟩
  | suspendUnpaid id reason =>
    refine .inr ⟨id, rowWrite_write hstep fun inst inst' hwrite => ?_⟩
    unfold Incudal.suspendUnpaid at hwrite
    split_ifs at hwrite with hup
    obtain rfl := Option.some.inj hwrite
    exact ⟨rfl, rfl, fun hdeleted => by simp [hdeleted] at hup⟩
  | suspendInstanceManually id reason =>
    refine .inr ⟨id, rowWrite_write hstep fun inst inst' hwrite => ?_⟩
    unfold Incudal.suspendInstanceManually at hwrite
    split_ifs at hwrite
    obtain rfl := Option.some.inj hwrite
    exact ⟨rfl, rfl, fun _ => .inr rfl⟩
  | suspendInstance id reason =>
    have hwrites : w.write id (Incudal.suspendInstance reason) = some w' := hstep
    refine .inr ⟨id, rowWrite_write hwrites fun inst inst' hwrite => ?_⟩
    obtain rfl := Option.some.inj hwrite
    exact ⟨rfl, rfl, fun _ => .inr rfl⟩
  | unsuspendInstance id =>
    have hwrites : w.write id Incudal.unsuspendInstance = some w' := hstep
    refine .inr ⟨id, rowWrite_write hwrites fun inst inst' hwrite => ?_⟩
    obtain rfl := Option.some.inj hwrite
    exact ⟨rfl, rfl, fun _ => .inr rfl⟩
  | liftTrafficSuspension id expectedVersion =>
    refine .inr ⟨id, rowWrite_write hstep fun inst inst' hwrite => ?_⟩
    unfold Incudal.liftTrafficSuspension at hwrite
    split_ifs at hwrite with hsuspended
    obtain rfl := Option.some.inj hwrite
    exact ⟨rfl, rfl, fun hdeleted => absurd (hsuspended.1.symm.trans hdeleted) (by decide)⟩
  | renew id expectedVersion newExpiresAt =>
    refine .inr ⟨id, rowWrite_write hstep fun inst inst' hwrite => ?_⟩
    unfold renewInstance at hwrite
    split_ifs at hwrite with hrenewable
    obtain rfl := Option.some.inj hwrite
    refine ⟨rfl, rfl, fun hdeleted => ?_⟩
    have hup := hrenewable.2
    simp [Instance.isRenewable, Instance.isExpiredSuspension, hdeleted] at hup
  | claimExpiredInstanceForDeletion id suspendedAt expectedVersion expectedSuspendedAt =>
    refine .inr ⟨id, rowWrite_write hstep fun inst inst' hwrite => ?_⟩
    unfold Incudal.claimExpiredInstanceForDeletion at hwrite
    split_ifs at hwrite
    · obtain rfl := Option.some.inj hwrite
      exact ⟨rfl, rfl, .inl⟩
    · obtain rfl := Option.some.inj hwrite
      exact ⟨rfl, rfl, fun _ => .inl rfl⟩
  | restoreExpiredInstanceDeletionClaim id claimVersion =>
    refine .inr ⟨id, rowWrite_write hstep fun inst inst' hwrite => ?_⟩
    unfold Incudal.restoreExpiredInstanceDeletionClaim at hwrite
    split_ifs at hwrite
    obtain rfl := Option.some.inj hwrite
    exact ⟨rfl, rfl, fun _ => .inr rfl⟩

end Writes

/-! ## Counting -/

section Counts

variable {w w' : SharedWorld} {id packageId userId : ℕ}

theorem mem_instancesOf {statuses : InstanceStatus → Bool} :
    id ∈ w.instancesOf packageId userId statuses ↔ id < w.nextInstanceId ∧
      ∃ inst, w.db.instances id = some inst ∧ inst.userId = userId ∧
        inst.packageId = some packageId ∧ statuses inst.status = true := by
  unfold SharedWorld.instancesOf
  rw [Finset.mem_filter, Finset.mem_range]
  cases hrow : w.db.instances id with
  | none => simp
  | some inst => simp [and_assoc]

theorem usage_le_liveCount (w : SharedWorld) (packageId userId : ℕ) :
    w.getSharedPackageUsage packageId userId ≤ w.liveCount packageId userId := by
  unfold SharedWorld.getSharedPackageUsage SharedWorld.liveCount
  refine Finset.card_le_card fun id hid => ?_
  obtain ⟨hid, inst, hrow, huser, hpackage, hup⟩ := mem_instancesOf.mp hid
  refine mem_instancesOf.mpr ⟨hid, inst, hrow, huser, hpackage, ?_⟩
  rcases Bool.or_eq_true_iff.mp hup with hup | hup <;> simp [beq_iff_eq.mp hup]

/-- The rows that count after a statement counted before it, but for one that was brought back. -/
theorem mem_live_of_write {returns : Prop} (hids : w'.nextInstanceId = w.nextInstanceId)
    (h : RowWrite returns w.db w'.db id) {j : ℕ}
    (hj : j ∈ w'.instancesOf packageId userId (· != .deleted)) :
    j ∈ w.instancesOf packageId userId (· != .deleted) ∨
      j = id ∧ returns ∧ ∃ inst, w.db.instances id = some inst ∧ inst.status = .deleted ∧
        inst.userId = userId ∧ inst.packageId = some packageId := by
  obtain ⟨hj, inst', hrow', huser', hpackage', hlive⟩ := mem_instancesOf.mp hj
  by_cases hne : j = id
  · subst hne
    obtain ⟨inst, hrow, huser, hpackage, hstatus⟩ := h.row inst' hrow'
    by_cases hdeleted : inst.status = .deleted
    · refine .inr ⟨rfl, ?_, inst, hrow, hdeleted, huser ▸ huser', hpackage ▸ hpackage'⟩
      exact (hstatus hdeleted).resolve_left (by simpa using hlive)
    · exact .inl (mem_instancesOf.mpr ⟨hids ▸ hj, inst, hrow, huser ▸ huser', hpackage ▸ hpackage',
        by simpa using hdeleted⟩)
  · exact .inl (mem_instancesOf.mpr
      ⟨hids ▸ hj, inst', (h.others j hne).symm.trans hrow', huser', hpackage', hlive⟩)

/-- A statement adds at most the row it brings back. -/
theorem liveCount_of_write {returns : Prop} (packageId userId : ℕ)
    (hids : w'.nextInstanceId = w.nextInstanceId) (h : RowWrite returns w.db w'.db id) :
    w'.liveCount packageId userId ≤ w.liveCount packageId userId ∨
      returns ∧ (∃ inst, w.db.instances id = some inst ∧ inst.status = .deleted ∧
        inst.userId = userId ∧ inst.packageId = some packageId) ∧
      w'.liveCount packageId userId ≤ w.liveCount packageId userId + 1 := by
  unfold SharedWorld.liveCount
  by_cases hback : returns ∧ ∃ inst, w.db.instances id = some inst ∧ inst.status = .deleted ∧
      inst.userId = userId ∧ inst.packageId = some packageId
  · have hsub : w'.instancesOf packageId userId (· != .deleted) ⊆
        insert id (w.instancesOf packageId userId (· != .deleted)) := by
      intro j hj
      rcases mem_live_of_write hids h hj with hj | ⟨rfl, -⟩
      · exact Finset.mem_insert_of_mem hj
      · exact Finset.mem_insert_self _ _
    exact .inr ⟨hback.1, hback.2, (Finset.card_le_card hsub).trans (Finset.card_insert_le _ _)⟩
  · refine .inl (Finset.card_le_card fun j hj => ?_)
    rcases mem_live_of_write hids h hj with hj | ⟨-, hreturns⟩
    · exact hj
    · exact absurd hreturns hback

/-- A purchase adds its own row. -/
theorem liveCount_createRow (w : SharedWorld) (packageId userId packageId' userId' : ℕ)
    (terms : SharedWorld.Terms) :
    (w.createRow packageId userId terms).liveCount packageId' userId' ≤
      w.liveCount packageId' userId' + if packageId' = packageId ∧ userId' = userId then 1 else 0 := by
  unfold SharedWorld.liveCount
  have hold : ∀ j ∈ (w.createRow packageId userId terms).instancesOf packageId' userId'
      (· != .deleted), j ∈ w.instancesOf packageId' userId' (· != .deleted) ∨
        j = w.nextInstanceId ∧ packageId' = packageId ∧ userId' = userId := by
    intro j hj
    obtain ⟨hj, inst, hrow, huser, hpackage, hlive⟩ := mem_instancesOf.mp hj
    by_cases hne : j = w.nextInstanceId
    · subst hne
      obtain rfl := Option.some.inj ((Db.setInstance_instances_self _ _ _).symm.trans hrow)
      exact .inr ⟨rfl, (Option.some.inj hpackage).symm, huser.symm⟩
    · have hbefore : w.db.instances j = some inst := (Function.update_of_ne hne _ _).symm.trans hrow
      refine .inl (mem_instancesOf.mpr ⟨?_, inst, hbefore, huser, hpackage, hlive⟩)
      exact Nat.lt_of_le_of_ne (Nat.le_of_lt_succ hj) hne
  by_cases hkey : packageId' = packageId ∧ userId' = userId
  · rw [if_pos hkey]
    refine (Finset.card_le_card fun j hj => ?_).trans
      (Finset.card_insert_le w.nextInstanceId (w.instancesOf packageId' userId' (· != .deleted)))
    rcases hold j hj with hj | ⟨rfl, -⟩
    · exact Finset.mem_insert_of_mem hj
    · exact Finset.mem_insert_self _ _
  · rw [if_neg hkey, Nat.add_zero]
    refine Finset.card_le_card fun j hj => ?_
    rcases hold j hj with hj | ⟨-, hsame⟩
    · exact hj
    · exact absurd hsame hkey

end Counts

/-! ## Runs -/

/-- The instances that are not deleted are within the limits. -/
def SharedWorld.LiveWithinLimits (w : SharedWorld) : Prop :=
  ∀ packageId pkg, w.packages packageId = some pkg → pkg.globalShared = true →
    ∀ userId, userId ≠ pkg.userId →
      w.liveCount packageId userId ≤ normalizeGlobalMaxInstances pkg.globalMaxInstances

section Runs

variable {w w' : SharedWorld}

theorem SharedWorld.LiveWithinLimits.limitsKept (h : w.LiveWithinLimits) : w.LimitsKept := by
  intro packageId pkg hpkg hshared userId huser
  exact (usage_le_liveCount w packageId userId).trans (h packageId pkg hpkg hshared userId huser)

theorem lt_of_roomFor {packageId userId : ℕ} {pkg : SharedPackage}
    (h : w.roomFor packageId userId = true) (hpkg : w.packages packageId = some pkg)
    (hshared : pkg.globalShared = true) (huser : userId ≠ pkg.userId) :
    w.liveCount packageId userId < normalizeGlobalMaxInstances pkg.globalMaxInstances := by
  unfold SharedWorld.roomFor at h
  simpa [hpkg, hshared, Ne.symm huser] using h

theorem SharedWorld.LiveWithinLimits.step {event : SharedEvent} (h : w.LiveWithinLimits)
    (hok : countsLive w event = true) (hstep : sharedStep w event = some w') :
    w'.LiveWithinLimits := by
  rcases sharedStep_write hstep with ⟨buyer, bought, terms, rfl, rfl⟩ | ⟨id, hpackages, hids, hwrite⟩
  · intro packageId pkg hpkg hshared userId huser
    have hbound := liveCount_createRow w bought buyer packageId userId terms
    by_cases hkey : packageId = bought ∧ userId = buyer
    · rw [if_pos hkey] at hbound
      obtain ⟨rfl, rfl⟩ := hkey
      exact hbound.trans (lt_of_roomFor hok hpkg hshared huser)
    · rw [if_neg hkey] at hbound
      exact hbound.trans (h packageId pkg hpkg hshared userId huser)
  · intro packageId pkg hpkg hshared userId huser
    rw [hpackages] at hpkg
    rcases liveCount_of_write packageId userId hids hwrite with
      hbound | ⟨hrevives, ⟨inst, hrow, hdeleted, rfl, hpackage⟩, hbound⟩
    · exact hbound.trans (h packageId pkg hpkg hshared userId huser)
    · have hroom : w.roomFor packageId inst.userId = true := by
        have hreturn : w.mayReturn id = true := by
          cases event <;> simp [SharedEvent.revives] at hrevives <;>
            simpa [countsLive, SharedEvent.revives, hrevives] using hok
        unfold SharedWorld.mayReturn at hreturn
        simpa [hrow, hdeleted, hpackage] using hreturn
      exact hbound.trans (lt_of_roomFor hroom hpkg hshared huser)

end Runs

/-- As long as purchases, and steps that bring a deleted row back, find room among all the
user's instances that are not deleted, the limits of the shared packages are kept. -/
theorem shared_limits_kept {w₀ w : SharedWorld} (h₀ : w₀.LiveWithinLimits)
    (hrun : Machine.Reach sharedStep (fun w event => countsLive w event = true) w₀ w) :
    w.LimitsKept := by
  have hlive : w.LiveWithinLimits := by
    refine hrun.invariant (P := SharedWorld.LiveWithinLimits) h₀ ?_
    intro t u event ht hok hstep
    exact ht.step hok hstep
  exact hlive.limitsKept

/-! ## A limit of one -/

/-- User 2 may have one instance of package 1, which belongs to user 1. -/
def oneSharedPackage : SharedWorld where
  db :=
    { users := fun _ => none
      hosts := fun _ => none
      instances := fun _ => none }
  env := { now := 0 }
  nextInstanceId := 0
  packages := fun id => if id = 1 then some { userId := 1, globalMaxInstances := some 1 } else none

theorem oneSharedPackage_start : oneSharedPackage.LiveWithinLimits := by
  intro packageId pkg _ _ userId _
  exact Nat.zero_le _

/-- An instance is bought, suspended and deleted, and another one is bought. -/
theorem shared_limits_kept_replaced :
    ∃ w, Machine.exec (Machine.guarded sharedStep countsLive) oneSharedPackage
        [.createInstance 2 1 { hostId := 5 }, .markRunning 0, .suspendInstance 0 "abuse",
          .claimForDeletion 0 .suspended none false, .createInstance 2 1 { hostId := 5 },
          .markCreatingInstanceProvisioned 1 .stopped] = some w ∧
      w.getSharedPackageUsage 1 2 = 1 ∧ w.LimitsKept := by
  have hvalues : (Machine.exec (Machine.guarded sharedStep countsLive) oneSharedPackage
      [.createInstance 2 1 { hostId := 5 }, .markRunning 0, .suspendInstance 0 "abuse",
        .claimForDeletion 0 .suspended none false, .createInstance 2 1 { hostId := 5 },
        .markCreatingInstanceProvisioned 1 .stopped]).map (·.getSharedPackageUsage 1 2) =
      some 1 := by decide +kernel
  obtain ⟨w, hexec, hw⟩ := Option.map_eq_some_iff.mp hvalues
  exact ⟨w, hexec, hw,
    shared_limits_kept oneSharedPackage_start (Machine.reach_of_exec_guarded hexec)⟩

/-- Two purchases before the first instance is up: both become running. -/
theorem two_instances_of_one :
    ∃ w, Machine.Reach sharedStep Machine.free oneSharedPackage w ∧
      w.getSharedPackageUsage 1 2 = 2 ∧ ¬w.LimitsKept := by
  have hvalues : (Machine.exec sharedStep oneSharedPackage
      [.createInstance 2 1 { hostId := 5 }, .createInstance 2 1 { hostId := 5 },
        .markRunning 0, .markRunning 1]).map (fun w => (w.getSharedPackageUsage 1 2,
          w.packages 1)) =
      some (2, some { userId := 1, globalMaxInstances := some 1 }) := by decide +kernel
  obtain ⟨w, hexec, hw⟩ := Option.map_eq_some_iff.mp hvalues
  simp only [Prod.mk.injEq] at hw
  refine ⟨w, Machine.reach_of_exec hexec, hw.1, fun hkept => ?_⟩
  have hbound := hkept 1 _ hw.2 rfl 2 (by decide)
  rw [hw.1] at hbound
  exact absurd hbound (by decide)

end Incudal
