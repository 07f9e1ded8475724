/-
# `ExpiryDeletion` — an expired instance is suspended, renewed or deleted

An instance that has expired is suspended, and three days later it is deleted:
a worker claims the row, deletes the instance on Incus and removes the row.  The
row is `deleted` with the reason `expired` while it is claimed, and `version`
tells one claim from the next; a worker that fails restores the row.  A renewal
takes the instance out of this, unless it is claimed.

A claim that another worker holds is handed out again, for the sake of workers
that have died.  `noPendingDeletion` is the condition on a renewal that no
worker, of whatever claim, has its deletion on Incus still ahead; in the runs
that meet it no instance is deleted on Incus after a renewal
(`expiry_deletions_safe`).
-/
import Incudal.Charges
import Incudal.HostResources
import Incudal.Lib.Machine

namespace Incudal

/-! ## The row -/

/-- Suspended because it has expired, or claimed for its deletion. -/
def Instance.expiring (inst : Instance) : Bool :=
  (inst.status == .suspended || inst.status == .deleted) && inst.suspendReason == some "expired"

/-- The claim of a deletion: `deleted` with the reason `expired`. -/
def Instance.deletionClaimed (inst : Instance) : Bool :=
  inst.status == .deleted && inst.suspendReason == some "expired"

/-- The package instance has expired. -/
def Instance.hasExpired (inst : Instance) (now : Time) : Bool :=
  inst.isPackageInstance && inst.expiresAt.any (· < now)

/-- `suspendInstanceByExpiry`, where stopping the instance on Incus succeeds: the
row as it is written, if it is. -/
def suspendInstanceByExpiry (inst : Instance) (now : Time) : Option Instance :=
  if inst.hasExpired now && (inst.status == .running || inst.status == .stopped) then
    some { inst with
      status := .suspended, suspendReason := some "expired", version := inst.version + 1 }
  else none

/-- `claimExpiredInstanceForDeletion`: the row as it is after the claim. -/
def claimExpiredInstanceForDeletion (inst : Instance) (suspendedAt : Option Time)
    (expectedVersion : ℕ) (expectedSuspendedAt : Time) : Option Instance :=
  if suspendedAt ≠ some expectedSuspendedAt then none
  -- a claim of the same version is handed out again
  else if inst.deletionClaimed && inst.version == expectedVersion then some inst
  else if !inst.isExpiredSuspension || inst.version != expectedVersion then none
  else some { inst with status := .deleted, version := inst.version + 1 }

/-- `restoreExpiredInstanceDeletionClaim`. -/
def restoreExpiredInstanceDeletionClaim (inst : Instance) (claimVersion : ℕ) : Option Instance :=
  if inst.deletionClaimed && inst.version == claimVersion then
    some { inst with status := .suspended, version := inst.version + 1 }
  else none

/-- The condition of the deletion in `deleteExpiredInstanceAndRollbackResources`. -/
def deletionStands (inst : Instance) (suspendedAt : Option Time) (expectedVersion : ℕ)
    (expectedSuspendedAt : Time) : Bool :=
  inst.deletionClaimed && inst.version == expectedVersion &&
    suspendedAt == some expectedSuspendedAt

/-! ## Workers -/

/-- The next step of `processExpiryDelete`. -/
inductive ExpiryStage
  | claim | deleteIncus | deleteRow | restore
deriving DecidableEq, Repr

/-- A call of `processExpiryDelete`, with the version and the time of the
suspension that it goes by: of the row it was given, then of its claim. -/
structure ExpiryWorker where
  version : ℕ
  suspendedAt : Time
  stage : ExpiryStage
deriving DecidableEq, Repr

inductive ExpiryEffect
  | suspended
  | renewed
  | claimed (version : ℕ)
  /-- the deletion on Incus, under the claim of this version -/
  | deleted (version : ℕ)
  /-- the row is removed and its resources are released -/
  | released
deriving DecidableEq, Repr

structure ExpiryWorld where
  db : Db
  hosts : HostTable
  env : Env
  /-- `suspendedAt` of the row -/
  suspendedAt : Option Time := none
  /-- Incus has the instance -/
  incus : Bool := true
  workers : List ExpiryWorker := []
  history : List ExpiryEffect := []

/-- `SUSPEND_AFTER_DELETE_DAYS`. -/
def suspendAfterDeleteDays : ℤ := 3

namespace ExpiryWorld

def row (w : ExpiryWorld) (p : Reservation) : Option Instance := w.db.instances p.instanceId

/-- The row is written. -/
def wrote (w : ExpiryWorld) (p : Reservation) (inst : Instance) (effects : List ExpiryEffect) :
    ExpiryWorld :=
  { w with db := w.db.setInstance p.instanceId inst, history := w.history ++ effects }

/-- The worker at a place of the list goes on or ends. -/
def goto (w : ExpiryWorld) (i : ℕ) : Option ExpiryWorker → ExpiryWorld
  | none => { w with workers := w.workers.eraseIdx i }
  | some k => { w with workers := w.workers.set i k }

/-- `deleteExpiredInstanceAndRollbackResources`: `none` when it throws. -/
def deleteRow (w : ExpiryWorld) (p : Reservation) (k : ExpiryWorker) : Option ExpiryWorld :=
  match w.row p with
  | none => some w
  | some inst =>
      if deletionStands inst w.suspendedAt k.version k.suspendedAt then
        match decrementHostResourceCounters w.hosts p.hostId p.resources with
        | .error _ => none
        | .ok hosts =>
            some { w with
              db := { w.db with instances := Function.update w.db.instances p.instanceId none }
              hosts, history := w.history ++ [.released] }
      else some w

/-- The request that deletes the instance on Incus. -/
def deleteIncus (w : ExpiryWorld) (k : ExpiryWorker) : ExpiryWorld :=
  if w.incus then { w with incus := false, history := w.history ++ [.deleted k.version] } else w

/-- The next step of a worker, and the worker after it; `none` as the worker if it ends. -/
def advance (w : ExpiryWorld) (p : Reservation) (k : ExpiryWorker) :
    Option (ExpiryWorld × Option ExpiryWorker) :=
  match k.stage with
  | .claim =>
      match w.row p with
      | none => some (w, none)
      | some inst =>
          match claimExpiredInstanceForDeletion inst w.suspendedAt k.version k.suspendedAt with
          | none => some (w, none)
          | some claimed =>
              some (w.wrote p claimed [.claimed claimed.version],
                some { k with version := claimed.version, stage := .deleteIncus })
  | .deleteIncus => some (w.deleteIncus k, some { k with stage := .deleteRow })
  | .deleteRow => (w.deleteRow p k).map fun w => (w, none)
  | .restore =>
      match (w.row p).bind fun inst => restoreExpiredInstanceDeletionClaim inst k.version with
      | none => some (w, none)
      | some inst => some (w.wrote p inst [], none)

end ExpiryWorld

/-- Where a worker goes when its step throws: a claim that it has is restored. -/
def ExpiryWorker.caught (k : ExpiryWorker) : Option ExpiryWorker :=
  match k.stage with
  | .claim | .restore => none
  | .deleteIncus | .deleteRow => some { k with stage := .restore }

/-! ## The system -/

inductive ExpiryEvent
  | tick (env : Env)
  | renew (userId : ℕ) (snapshot : Instance) (months : ℕ) (d : Discounted)
  | suspend
  /-- a deletion job finds the row in `getSuspendedInstancesOlderThan` -/
  | select
  | step (i : ℕ)
  /-- the step of the worker throws and has done nothing -/
  | fail (i : ℕ)
  /-- the instance is deleted on Incus, but the answer is lost -/
  | deleteUnanswered (i : ℕ)

def expiryStep (p : Reservation) (w : ExpiryWorld) : ExpiryEvent → Option ExpiryWorld
  | .tick env => if w.env.now ≤ env.now then some { w with env } else none
  | .renew userId snapshot months d =>
      match performRenewal w.db w.env userId p.instanceId snapshot months d with
      | .error _ => none
      | .ok db =>
          let suspendedAt := if (w.row p).any (·.isExpiredSuspension) then none else w.suspendedAt
          some { w with db, suspendedAt, history := w.history ++ [.renewed] }
  | .suspend =>
      match (w.row p).bind fun inst => suspendInstanceByExpiry inst w.env.now with
      | none => none
      | some inst => some { w.wrote p inst [.suspended] with suspendedAt := some w.env.now }
  | .select =>
      match w.row p, w.suspendedAt with
      | some inst, some suspendedAt =>
          if inst.expiring ∧ suspendedAt < w.env.now - suspendAfterDeleteDays * msPerDay then
            some { w with workers :=
              w.workers ++ [{ version := inst.version, suspendedAt, stage := .claim }] }
          else none
      | _, _ => none
  | .step i =>
      match w.workers[i]? with
      | none => none
      | some k => (w.advance p k).map fun (w, next) => w.goto i next
  | .fail i =>
      match w.workers[i]? with
      | none => none
      | some k => some (w.goto i k.caught)
  | .deleteUnanswered i =>
      match w.workers[i]? with
      | none => none
      | some k => if k.stage = .deleteIncus then some ((w.deleteIncus k).goto i k.caught) else none

/-! ## What is to hold -/

/-- Every renewal is followed by the effect. -/
def AfterRenewals (history : List ExpiryEffect) (effect : ExpiryEffect) : Prop :=
  ∀ pre mid, history = pre ++ .renewed :: mid → effect ∈ mid

/-- A deletion on Incus goes by a claim that is later than any renewal before the
deletion, and so is the suspension that the claim is about. -/
def DeletionsClaimed (history : List ExpiryEffect) : Prop :=
  ∀ pre version post, history = pre ++ .deleted version :: post →
    AfterRenewals pre (.claimed version) ∧ AfterRenewals pre .suspended

structure ExpirySafe (p : Reservation) (w₀ w : ExpiryWorld) : Prop where
  deletions : DeletionsClaimed w.history
  reserved : (w.row p).isSome = true → w.hosts = w₀.hosts ∧ .released ∉ w.history
  released : w.row p = none →
    decrementHostResourceCounters w₀.hosts p.hostId p.resources = .ok w.hosts ∧
      w.history.filter (· = .released) = [.released]

/-- A renewal is committed only while no worker has its deletion on Incus ahead. -/
def noPendingDeletion (w : ExpiryWorld) : ExpiryEvent → Bool
  | .renew .. => w.workers.all (·.stage != .deleteIncus)
  | _ => true

section Histories

variable {history pre post : List ExpiryEffect} {x y : ExpiryEffect}

/-- A history that has grown by one effect is split there or before. -/
theorem split_of_snoc (h : history ++ [y] = pre ++ x :: post) :
    (history = pre ∧ y = x) ∨ ∃ mid, post = mid ++ [y] ∧ history = pre ++ x :: mid := by
  rcases List.eq_nil_or_concat' post with rfl | ⟨mid, z, rfl⟩
  · obtain ⟨hpre, hlast⟩ := List.append_inj' h rfl
    exact .inl ⟨hpre, List.singleton_inj.mp hlast⟩
  · have hassoc : history ++ [y] = (pre ++ x :: mid) ++ [z] := by simpa using h
    obtain ⟨hmid, hlast⟩ := List.append_inj' hassoc rfl
    exact .inr ⟨mid, by rw [List.singleton_inj.mp hlast], hmid⟩

theorem AfterRenewals.append (h : AfterRenewals history x) (hy : y ≠ .renewed) :
    AfterRenewals (history ++ [y]) x := by
  intro pre post heq
  rcases split_of_snoc heq with ⟨-, rfl⟩ | ⟨mid, rfl, hmid⟩
  · exact absurd rfl hy
  · exact List.mem_append_left _ (h pre mid hmid)

theorem afterRenewals_append_self (hx : x ≠ .renewed) : AfterRenewals (history ++ [x]) x := by
  intro pre post heq
  rcases split_of_snoc heq with ⟨-, rfl⟩ | ⟨mid, rfl, -⟩
  · exact absurd rfl hx
  · exact List.mem_append_right _ (List.mem_singleton_self x)

theorem afterRenewals_nil : AfterRenewals [] x := by
  intro pre post heq
  simp at heq

theorem DeletionsClaimed.append (h : DeletionsClaimed history)
    (hnew : ∀ version, x = .deleted version →
      AfterRenewals history (.claimed version) ∧ AfterRenewals history .suspended) :
    DeletionsClaimed (history ++ [x]) := by
  intro pre version post heq
  rcases split_of_snoc heq with ⟨rfl, hx⟩ | ⟨mid, -, hmid⟩
  · exact hnew version hx
  · exact h pre version mid hmid

end Histories

/-! ## What one step does -/

section Steps

variable {p : Reservation} {w₀ w w' : ExpiryWorld} {e : ExpiryEvent} {k : ExpiryWorker}
  {next : Option ExpiryWorker} {inst inst' : Instance}

/-- A step by the effect it has.  `sameWorkers` in each: a worker that has its
deletion on Incus ahead was there before, unless it has just claimed the row. -/
inductive ExpiryChange (p : Reservation) (w : ExpiryWorld) (e : ExpiryEvent) (w' : ExpiryWorld) :
    Prop
  | quiet (row : (w'.row p).isSome = (w.row p).isSome)
      (expiring : ∀ inst', w'.row p = some inst' → inst'.expiring = true →
        ∃ inst, w.row p = some inst ∧ inst.expiring = true)
      (hosts : w'.hosts = w.hosts) (history : w'.history = w.history)
      (workers : ∀ k ∈ w'.workers, k.stage = .deleteIncus → k ∈ w.workers)
  | renewed (event : noPendingDeletion w e = true → ∀ k ∈ w.workers, k.stage ≠ .deleteIncus)
      (row : (w.row p).isSome = true) (inst' : Instance) (row' : w'.row p = some inst')
      (expiring : inst'.expiring = false) (hosts : w'.hosts = w.hosts)
      (history : w'.history = w.history ++ [.renewed]) (workers : w'.workers = w.workers)
  | suspended (row : (w.row p).isSome = true) (row' : (w'.row p).isSome = true)
      (hosts : w'.hosts = w.hosts) (history : w'.history = w.history ++ [.suspended])
      (workers : w'.workers = w.workers)
  | claimed (version : ℕ) (inst inst' : Instance) (row : w.row p = some inst)
      (expiring : inst.expiring = true) (row' : w'.row p = some inst')
      (hosts : w'.hosts = w.hosts) (history : w'.history = w.history ++ [.claimed version])
      (workers : ∀ k ∈ w'.workers, k.stage = .deleteIncus → k ∈ w.workers ∨ k.version = version)
  | deleted (k : ExpiryWorker) (worker : k ∈ w.workers) (stage : k.stage = .deleteIncus)
      (row : w'.row p = w.row p) (hosts : w'.hosts = w.hosts)
      (history : w'.history = w.history ++ [.deleted k.version])
      (workers : ∀ k ∈ w'.workers, k.stage = .deleteIncus → k ∈ w.workers)
  | released (row : (w.row p).isSome = true) (row' : w'.row p = none)
      (hosts : decrementHostResourceCounters w.hosts p.hostId p.resources = .ok w'.hosts)
      (history : w'.history = w.history ++ [.released])
      (workers : ∀ k ∈ w'.workers, k.stage = .deleteIncus → k ∈ w.workers)

theorem ExpiryWorker.caught_stage {k' : ExpiryWorker} (h : k.caught = some k') :
    k'.stage ≠ .deleteIncus := by
  obtain ⟨version, suspendedAt, stage⟩ := k
  cases stage <;> cases h <;> simp

theorem ExpiryWorld.mem_goto {i : ℕ} {k' : ExpiryWorker} (h : k' ∈ (w.goto i next).workers) :
    k' ∈ w.workers ∨ next = some k' := by
  cases next with
  | none => exact .inl (List.mem_of_mem_eraseIdx h)
  | some k =>
      rcases List.mem_or_eq_of_mem_set h with hold | rfl
      · exact .inl hold
      · exact .inr rfl

@[simp] theorem ExpiryWorld.goto_row (i : ℕ) : (w.goto i next).row p = w.row p := by
  cases next <;> rfl

@[simp] theorem ExpiryWorld.goto_hosts (i : ℕ) : (w.goto i next).hosts = w.hosts := by
  cases next <;> rfl

@[simp] theorem ExpiryWorld.goto_history (i : ℕ) : (w.goto i next).history = w.history := by
  cases next <;> rfl

@[simp] theorem ExpiryWorld.wrote_row (effects : List ExpiryEffect) :
    (w.wrote p inst effects).row p = some inst := by
  simp [ExpiryWorld.wrote, ExpiryWorld.row, Db.setInstance]

theorem Instance.expiring_of_deletionClaimed (h : inst.deletionClaimed = true) :
    inst.expiring = true := by
  simp only [deletionClaimed, expiring, Bool.and_eq_true, Bool.or_eq_true] at *
  exact ⟨.inr h.1, h.2⟩

theorem Instance.expiring_of_isExpiredSuspension (h : inst.isExpiredSuspension = true) :
    inst.expiring = true := by
  simp only [isExpiredSuspension, expiring, Bool.and_eq_true, Bool.or_eq_true] at *
  exact ⟨.inl h.1, h.2⟩

/-- A renewal takes a row out of the expiry: only an expired suspension could be
renewed there, and it is lifted. -/
theorem Instance.expiring_renewed {newExpiresAt : Time} (h : inst.isRenewable = true) :
    (inst.renewed newExpiresAt).expiring = false := by
  by_cases hexpired : inst.isExpiredSuspension = true
  · simp [renewed, expiring, hexpired]
  · simp only [isRenewable, hexpired, Bool.or_false, Bool.or_eq_true, beq_iff_eq] at h
    rcases h with h | h <;> simp [renewed, expiring, hexpired, h]

theorem claimExpiredInstanceForDeletion_expiring {suspendedAt : Option Time} {version : ℕ}
    {expectedSuspendedAt : Time} (h : claimExpiredInstanceForDeletion inst suspendedAt version
      expectedSuspendedAt = some inst') : inst.expiring = true := by
  simp only [claimExpiredInstanceForDeletion] at h
  split at h
  · cases h
  split at h
  · rename_i hclaimed
    rw [Bool.and_eq_true] at hclaimed
    exact Instance.expiring_of_deletionClaimed hclaimed.1
  split at h
  · cases h
  · rename_i hsuspended
    rw [Bool.or_eq_true, not_or, Bool.not_eq_true', Bool.not_eq_false] at hsuspended
    exact Instance.expiring_of_isExpiredSuspension hsuspended.1

theorem restoreExpiredInstanceDeletionClaim_expiring {version : ℕ}
    (h : restoreExpiredInstanceDeletionClaim inst version = some inst') :
    inst.expiring = true := by
  simp only [restoreExpiredInstanceDeletionClaim] at h
  split at h
  · rename_i hclaimed
    rw [Bool.and_eq_true] at hclaimed
    exact Instance.expiring_of_deletionClaimed hclaimed.1
  · cases h

theorem ExpiryChange.of_same (row : w'.row p = w.row p) (hosts : w'.hosts = w.hosts)
    (history : w'.history = w.history)
    (workers : ∀ k ∈ w'.workers, k.stage = .deleteIncus → k ∈ w.workers) :
    ExpiryChange p w e w' :=
  .quiet (by rw [row]) (fun inst' hrow hexp => ⟨inst', row ▸ hrow, hexp⟩) hosts history workers

/-- The workers after a worker has gone on to a stage where it does not delete. -/
theorem ExpiryWorld.old_of_mem_goto {i : ℕ} (hnext : ∀ k, next = some k → k.stage ≠ .deleteIncus) :
    ∀ k ∈ (w.goto i next).workers, k.stage = .deleteIncus → k ∈ w.workers := by
  intro k hk hstage
  rcases mem_goto hk with hold | hnew
  · exact hold
  · exact absurd hstage (hnext k hnew)

theorem ExpiryChange.of_deleteIncus {i : ℕ} (hk : k ∈ w.workers) (hstage : k.stage = .deleteIncus)
    (hnext : ∀ k, next = some k → k.stage ≠ .deleteIncus) :
    ExpiryChange p w e ((w.deleteIncus k).goto i next) := by
  by_cases hincus : w.incus = true
  · have hdeleted : w.deleteIncus k =
        { w with incus := false, history := w.history ++ [.deleted k.version] } := by
      simp [ExpiryWorld.deleteIncus, hincus]
    rw [hdeleted]
    exact .deleted k hk hstage (ExpiryWorld.goto_row i) (ExpiryWorld.goto_hosts i)
      (ExpiryWorld.goto_history i) (ExpiryWorld.old_of_mem_goto hnext)
  · have hsame : w.deleteIncus k = w := by simp [ExpiryWorld.deleteIncus, hincus]
    rw [hsame]
    exact .of_same (by simp) (by simp) (by simp) (ExpiryWorld.old_of_mem_goto hnext)

theorem ExpiryChange.of_deleteRow {i : ℕ} (h : w.deleteRow p k = some w') :
    ExpiryChange p w e (w'.goto i none) := by
  have hworkers : ∀ w : ExpiryWorld, ∀ k ∈ (w.goto i none).workers, k.stage = .deleteIncus →
      k ∈ w.workers := fun w => ExpiryWorld.old_of_mem_goto (by simp)
  simp only [ExpiryWorld.deleteRow] at h
  split at h
  · cases h
    exact .of_same rfl rfl rfl (hworkers w)
  rename_i inst hrow
  split at h
  · split at h <;> cases h
    rename_i hosts hhosts
    exact .released (by simp [hrow]) (Function.update_self ..) hhosts rfl (hworkers w)
  · cases h
    exact .of_same rfl rfl rfl (hworkers w)

theorem expiryChange_of_advance {i : ℕ} (hk : k ∈ w.workers)
    (h : w.advance p k = some (w', next)) : ExpiryChange p w e (w'.goto i next) := by
  obtain ⟨version, suspendedAt, stage⟩ := k
  cases stage with
  | claim =>
      simp only [ExpiryWorld.advance] at h
      split at h
      · cases h
        exact .of_same rfl rfl rfl (ExpiryWorld.old_of_mem_goto (by simp))
      rename_i inst hrow
      split at h
      · cases h
        exact .of_same rfl rfl rfl (ExpiryWorld.old_of_mem_goto (by simp))
      · rename_i claimed hclaimed
        cases h
        refine .claimed claimed.version inst claimed hrow
          (claimExpiredInstanceForDeletion_expiring hclaimed) (by simp) rfl rfl fun k' hk' _ => ?_
        rcases ExpiryWorld.mem_goto hk' with hold | hnew
        · exact .inl hold
        · cases hnew
          exact .inr rfl
  | deleteIncus =>
      cases h
      exact .of_deleteIncus hk rfl fun k hk => by cases hk; simp
  | deleteRow =>
      obtain ⟨w₁, hrow, heq⟩ := Option.map_eq_some_iff.mp h
      cases heq
      exact .of_deleteRow hrow
  | restore =>
      simp only [ExpiryWorld.advance] at h
      split at h
      · cases h
        exact .of_same rfl rfl rfl (ExpiryWorld.old_of_mem_goto (by simp))
      · rename_i restored hrestored
        cases h
        obtain ⟨inst, hrow, hrestore⟩ := Option.bind_eq_some_iff.mp hrestored
        exact .quiet (by simp [hrow])
          (fun _ _ _ => ⟨inst, hrow, restoreExpiredInstanceDeletionClaim_expiring hrestore⟩) rfl
          (List.append_nil _) (ExpiryWorld.old_of_mem_goto (by simp))

theorem expiryChange_of_step (h : expiryStep p w e = some w') : ExpiryChange p w e w' := by
  cases e with
  | tick env =>
      simp only [expiryStep] at h
      split at h <;> cases h
      exact .of_same rfl rfl rfl fun k hk _ => hk
  | renew userId snapshot months d =>
      simp only [expiryStep] at h
      split at h <;> cases h
      rename_i db hrenewal
      obtain ⟨⟨inst, hrow, hrenewable⟩, -, newExpiresAt, hrows⟩ := performRenewal_spec hrenewal
      have hrow' : db.instances p.instanceId = some (inst.renewed newExpiresAt) := by
        simp [hrows, Db.updateInstance, hrow]
      refine .renewed ?_ (by simp [ExpiryWorld.row, hrow]) _ hrow'
        (Instance.expiring_renewed hrenewable) rfl rfl rfl
      simp [noPendingDeletion]
  | suspend =>
      simp only [expiryStep] at h
      split at h <;> cases h
      rename_i suspended hsuspended
      obtain ⟨inst, hrow, -⟩ := Option.bind_eq_some_iff.mp hsuspended
      refine .suspended (by simp [hrow]) ?_ rfl rfl rfl
      simp [ExpiryWorld.wrote, ExpiryWorld.row, Db.setInstance]
  | select =>
      simp only [expiryStep] at h
      split at h
      · split at h <;> cases h
        refine .of_same rfl rfl rfl fun k hk hstage => ?_
        rcases List.mem_append.mp hk with hold | hnew
        · exact hold
        · rw [List.mem_singleton.mp hnew] at hstage
          cases hstage
      · cases h
  | step i =>
      simp only [expiryStep] at h
      split at h
      · cases h
      rename_i k hk
      obtain ⟨⟨w₁, next⟩, hadvance, rfl⟩ := Option.map_eq_some_iff.mp h
      exact expiryChange_of_advance (List.mem_of_getElem? hk) hadvance
  | fail i =>
      simp only [expiryStep] at h
      split at h
      · cases h
      rename_i k hk
      cases h
      refine .of_same (by simp) (by simp) (by simp) (ExpiryWorld.old_of_mem_goto fun k' hk' => ?_)
      exact ExpiryWorker.caught_stage hk'
  | deleteUnanswered i =>
      simp only [expiryStep] at h
      split at h
      · cases h
      rename_i k hk
      split at h <;> cases h
      rename_i hstage
      exact .of_deleteIncus (List.mem_of_getElem? hk) hstage fun k' hk' =>
        ExpiryWorker.caught_stage hk'

/-! ## Every run -/

structure ExpiryInv (p : Reservation) (w₀ w : ExpiryWorld) : Prop where
  safe : ExpirySafe p w₀ w
  suspended : ∀ inst, w.row p = some inst → inst.expiring = true →
    AfterRenewals w.history .suspended
  pending : ∀ k ∈ w.workers, k.stage = .deleteIncus →
    AfterRenewals w.history (.claimed k.version) ∧ AfterRenewals w.history .suspended

/-- A step that releases nothing keeps the row or its absence, and adds to the history. -/
theorem ExpirySafe.booked {x : ExpiryEffect} (h : ExpirySafe p w₀ w)
    (row : (w'.row p).isSome = (w.row p).isSome) (hosts : w'.hosts = w.hosts)
    (history : w'.history = w.history ++ [x]) (hx : x ≠ .released)
    (hdeleted : ∀ version, x = .deleted version →
      AfterRenewals w.history (.claimed version) ∧ AfterRenewals w.history .suspended) :
    ExpirySafe p w₀ w' := by
  refine ⟨history ▸ h.deletions.append hdeleted, fun hsome => ?_, fun hnone => ?_⟩
  · obtain ⟨hhosts, hreleased⟩ := h.reserved (row ▸ hsome)
    refine ⟨hosts.trans hhosts, ?_⟩
    simp [history, hreleased, hx.symm]
  · obtain ⟨hhosts, hreleased⟩ := h.released ((Option.isSome_eq_isSome.mp row).mp hnone)
    refine ⟨hosts ▸ hhosts, ?_⟩
    simp [history, List.filter_append, hreleased, hx]

theorem ExpirySafe.congr (h : ExpirySafe p w₀ w) (row : (w'.row p).isSome = (w.row p).isSome)
    (hosts : w'.hosts = w.hosts) (history : w'.history = w.history) : ExpirySafe p w₀ w' := by
  refine ⟨history ▸ h.deletions, fun hsome => ?_, fun hnone => ?_⟩
  · rw [hosts, history]
    exact h.reserved (row ▸ hsome)
  · rw [hosts, history]
    exact h.released ((Option.isSome_eq_isSome.mp row).mp hnone)

/-- The workers that have their deletion ahead, over an effect that is no renewal. -/
theorem ExpiryInv.pending_append {x : ExpiryEffect} (h : ExpiryInv p w₀ w) (hx : x ≠ .renewed)
    (history : w'.history = w.history ++ [x])
    (workers : ∀ k ∈ w'.workers, k.stage = .deleteIncus → k ∈ w.workers) :
    ∀ k ∈ w'.workers, k.stage = .deleteIncus →
      AfterRenewals w'.history (.claimed k.version) ∧ AfterRenewals w'.history .suspended := by
  intro k hk hstage
  obtain ⟨hclaimed, hsuspended⟩ := h.pending k (workers k hk hstage) hstage
  rw [history]
  exact ⟨hclaimed.append hx, hsuspended.append hx⟩

theorem expiryInv_of_change (h : ExpiryInv p w₀ w) (hok : noPendingDeletion w e = true)
    (hc : ExpiryChange p w e w') : ExpiryInv p w₀ w' := by
  cases hc with
  | quiet row expiring hosts history workers =>
      refine ⟨h.safe.congr row hosts history, fun inst' hrow hexp => ?_, fun k hk hstage => ?_⟩
      · obtain ⟨inst, hinst, hwas⟩ := expiring inst' hrow hexp
        exact history ▸ h.suspended inst hinst hwas
      · exact history ▸ h.pending k (workers k hk hstage) hstage
  | renewed event row inst' row' expiring hosts history workers =>
      refine ⟨h.safe.booked (by rw [row, row']; rfl) hosts history (by simp) (by simp), ?_, ?_⟩
      · intro inst hrow hexp
        obtain rfl := Option.some.inj (row'.symm.trans hrow)
        rw [expiring] at hexp
        cases hexp
      · -- no deletion was ahead as the renewal was committed
        intro k hk hstage
        exact absurd hstage (event hok k (workers ▸ hk))
  | suspended row row' hosts history workers =>
      refine ⟨h.safe.booked (row'.trans row.symm) hosts history (by simp) (by simp), ?_,
        h.pending_append (by simp) history (by rw [workers]; exact fun k hk _ => hk)⟩
      intro inst hrow hexp
      rw [history]
      exact afterRenewals_append_self (by simp)
  | claimed version inst inst' row expiring row' hosts history workers =>
      have hsuspended : AfterRenewals w'.history .suspended := by
        rw [history]
        exact (h.suspended inst row expiring).append (by simp)
      refine ⟨h.safe.booked (by rw [row, row']; rfl) hosts history (by simp) (by simp),
        fun _ _ _ => hsuspended, fun k hk hstage => ?_⟩
      rcases workers k hk hstage with hold | rfl
      · rw [history]
        exact ⟨(h.pending k hold hstage).1.append (by simp),
          (h.pending k hold hstage).2.append (by simp)⟩
      · refine ⟨?_, hsuspended⟩
        rw [history]
        exact afterRenewals_append_self (by simp)
  | deleted k worker stage row hosts history workers =>
      refine ⟨h.safe.booked (by rw [row]) hosts history (by simp) ?_, ?_,
        h.pending_append (by simp) history workers⟩
      · intro version hversion
        cases hversion
        exact h.pending k worker stage
      · intro inst hrow hexp
        rw [history]
        exact (h.suspended inst (row ▸ hrow) hexp).append (by simp)
  | released row row' hosts history workers =>
      obtain ⟨hhosts, hreleased⟩ := h.safe.reserved row
      refine ⟨⟨history ▸ h.safe.deletions.append (by simp), ?_, fun _ => ⟨?_, ?_⟩⟩, ?_,
        h.pending_append (by simp) history workers⟩
      · intro hsome
        rw [row'] at hsome
        cases hsome
      · exact hhosts ▸ hosts
      · have hnone : w.history.filter (· = .released) = [] := by
          refine List.filter_eq_nil_iff.mpr fun x hx hreleasedx => ?_
          rw [of_decide_eq_true hreleasedx] at hx
          exact hreleased hx
        rw [history, List.filter_append, hnone]
        rfl
      · intro inst hrow
        rw [row'] at hrow
        cases hrow

/-- An instance that is there, before any worker has come to it. -/
structure ExpiryWorld.Start (w : ExpiryWorld) (p : Reservation) : Prop where
  row : (w.row p).isSome = true
  workers : w.workers = []
  history : w.history = []

theorem ExpiryWorld.Start.inv (h : w₀.Start p) : ExpiryInv p w₀ w₀ := by
  refine ⟨⟨?_, fun _ => ⟨rfl, by simp [h.history]⟩, fun hnone => ?_⟩, ?_, ?_⟩
  · intro pre version post heq
    simp [h.history] at heq
  · have hrow := h.row
    rw [hnone] at hrow
    cases hrow
  · intro _ _ _
    rw [h.history]
    exact afterRenewals_nil
  · simp [h.workers]

/-- In every run whose renewals find no worker with its deletion on Incus ahead,
every such deletion is claimed after the last renewal, of an instance that has
been suspended after it, and the resources of the instance are released once, as
its row is removed. -/
theorem expiry_deletions_safe (hstart : w₀.Start p)
    (hrun : Machine.Reach (expiryStep p) (noPendingDeletion · ·) w₀ w) : ExpirySafe p w₀ w :=
  (hrun.invariant (P := ExpiryInv p w₀) hstart.inv fun hinv hok hs =>
    expiryInv_of_change hinv hok (expiryChange_of_step hs)).safe

/-! ## Two runs -/

def expiredReservation : Reservation :=
  { instanceId := 5, hostId := 10, resources := { cpu := 100, memory := 1024, disk := 10240 } }

/-- User 1 has an instance at 30 yuan a month that expires at 0. -/
def expiredWorld : ExpiryWorld where
  db :=
    { users := fun
        | 1 => some { balance := toUnits 10000 }
        | _ => none
      hosts := fun
        | 10 => some { userId := 2 }
        | _ => none
      instances := fun
        | 5 => some
            { userId := 1, hostId := 10, status := .running, packageId := some 3
              packagePlanId := some 4, billingPrice := some 3000, billingCycle := some 1
              expiresAt := some 0 }
        | _ => none }
  hosts := fun
    | 10 => some
        { cpuAllowanceMax := some 800, memoryMax := some 65536
          used := { cpu := 300, memory := 4096, disk := 40960 } }
    | _ => none
  env := { now := 1000 }

theorem expiredWorld_start : expiredWorld.Start expiredReservation := ⟨rfl, rfl, rfl⟩

/-- The row as its owner sees it after the suspension and, once, the restoration. -/
def suspendedRow (version : ℕ) : Instance :=
  { userId := 1, hostId := 10, status := .suspended, suspendReason := some "expired"
    packageId := some 3, packagePlanId := some 4, billingPrice := some 3000
    billingCycle := some 1, expiresAt := some 0, version }

def monthlyRenewal : Discounted := { originalAmount := 3000, finalAmount := 3000 }

/-- Suspended, renewed, suspended again a month later and deleted by two workers
that share a claim. -/
theorem expiry_deletions_safe_shared :
    ∃ w, Machine.Reach (expiryStep expiredReservation) (noPendingDeletion · ·) expiredWorld w ∧
      w.history = [.suspended, .renewed, .suspended, .claimed 4, .claimed 4, .deleted 4,
        .released] ∧
      ExpirySafe expiredReservation expiredWorld w := by
  have hexec : (Machine.exec (Machine.guarded (expiryStep expiredReservation) noPendingDeletion)
      expiredWorld
      [.suspend, .renew 1 (suspendedRow 1) 1 monthlyRenewal, .tick { now := 3000000000 }, .suspend,
        .tick { now := 3300000000 }, .select, .step 0, .select, .step 1, .step 1, .step 0, .step 0,
        .step 0]).map (·.history)
      = some [.suspended, .renewed, .suspended, .claimed 4, .claimed 4, .deleted 4, .released] := by
    decide +kernel
  obtain ⟨w, hw, hhistory⟩ := Option.map_eq_some_iff.mp hexec
  have hrun := Machine.reach_of_exec_guarded hw
  exact ⟨w, hrun, hhistory, expiry_deletions_safe expiredWorld_start hrun⟩

/-- Two workers share a claim.  The deletion of the first fails and it restores
the row; the owner renews; the second deletes the instance. -/
theorem shared_claim_deletes_renewed :
    ∃ w, Machine.Reach (expiryStep expiredReservation) Machine.free expiredWorld w ∧
      w.history = [.suspended, .claimed 2, .claimed 2, .renewed, .deleted 2] ∧
      ¬ ExpirySafe expiredReservation expiredWorld w := by
  have hexec : (Machine.exec (expiryStep expiredReservation) expiredWorld
      [.suspend, .tick { now := 300000000 }, .select, .step 0, .select, .step 1, .fail 0, .step 0,
        .renew 1 (suspendedRow 3) 1 monthlyRenewal, .step 0]).map (·.history)
      = some [.suspended, .claimed 2, .claimed 2, .renewed, .deleted 2] := by decide +kernel
  obtain ⟨w, hw, hhistory⟩ := Option.map_eq_some_iff.mp hexec
  refine ⟨w, Machine.reach_of_exec hw, hhistory, fun h => ?_⟩
  have hclaimed := (h.deletions [.suspended, .claimed 2, .claimed 2, .renewed] 2 [] hhistory).1
  have hmem := hclaimed [.suspended, .claimed 2, .claimed 2] [] rfl
  cases hmem

end Steps

end Incudal
