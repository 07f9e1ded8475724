/-
# `ProvisionRuns` — promoted or refunded, and never deleted once promoted

Whatever the workers do to the row, and in whatever order, it is promoted or
settled, once, and not both: both start from a row that is `creating`, and both
leave it.

Whether a promoted instance stays on Incus is another matter, because no
transaction spans a decision to delete and the deletion.  `keepsApart` is the
condition on a step that a worker decides to delete only while the row has not
been promoted, and that `markCreatingInstanceProvisioned` promotes the row only
while no deletion is under way; in the runs that meet it no deletion follows a
promotion (`provision_settled_once`).
-/
import Incudal.Provisioning

namespace Incudal

/-! ## What is to hold -/

def ProvisionEffect.isSettled : ProvisionEffect → Bool
  | .settled _ => true
  | _ => false

/-- The row stands for an instance that has been provisioned. -/
def ProvisionWorld.provisioned (w : ProvisionWorld) (p : Reservation) : Bool :=
  (w.row p).any (·.status.provisioned)

/-- The row is `creating` and no cleanup has claimed it. -/
def ProvisionWorld.unclaimed (w : ProvisionWorld) (p : Reservation) : Bool :=
  (w.row p).any fun inst => inst.status == .creating && !inst.provisioningCleanupPending

/-- No deletion on Incus comes after a promotion. -/
def ProvisionWorld.Spared (w : ProvisionWorld) : Prop :=
  w.history.Pairwise fun a b => ¬ (a = .promoted ∧ b = .deleted)

/-- The provision has been refunded by one settlement, which also gave back what
it had reserved: nothing else has been booked since the start. -/
def RefundedOnce (p : Reservation) (w₀ w : ProvisionWorld) : Prop :=
  ∃ refundAmount inst env, w.history.filter (·.isSettled) = [.settled refundAmount] ∧
    failCreatingInstanceAndRefund (w₀.db.setInstance p.instanceId inst) env p.instanceId
      = .ok (w.db, some refundAmount) ∧
    decrementHostResourceCounters w₀.hosts p.hostId p.resources = .ok w.hosts

structure ProvisionSafe (p : Reservation) (w₀ w : ProvisionWorld) : Prop where
  exclusive : ∀ refundAmount, ¬ (.promoted ∈ w.history ∧ .settled refundAmount ∈ w.history)
  failed : ∀ inst, w.row p = some inst → inst.status = .error → RefundedOnce p w₀ w
  charged : ∀ inst, w.row p = some inst → inst.status ≠ .error →
    w.history.filter (·.isSettled) = [] ∧ w.db = w₀.db.setInstance p.instanceId inst ∧
      w.hosts = w₀.hosts
  spared : w.Spared

/-! ## The condition -/

/-- The worker has decided to delete the instance and has not done so yet. -/
def ProvisionStage.deleting : ProvisionStage → Bool
  | .lateDelete stage | .ensureDeleted stage => stage != .confirm
  | _ => false

/-- Promotion and deletion are kept apart: a worker decides to delete only if the
row has not been promoted, and none is deleting as the row is promoted. -/
def keepsApart (p : Reservation) (w : ProvisionWorld) : ProvisionEvent → Bool
  | .step i =>
      match w.workers[i]? with
      | none => true
      | some k =>
          match k.stage with
          | .lateSuccess =>
              (w.row p).all fun inst => inst.status != .stopped && inst.status != .suspended
          | .resolveAgain probe =>
              match w.probe probe with
              | .inr .absent | .inr .failed => !w.provisioned p
              | _ => true
          | .recover _ | .recoverAgain _ =>
              (w.row p).all (·.status != .creating) || w.workers.all (!·.stage.deleting)
          | _ => true
  | _ => true

/-! ## What one step does -/

/-- A worker is past the claim of the row, its own or that of another. -/
def ProvisionStage.late : ProvisionStage → Bool
  | .lateSuccess | .lateDelete _ | .resolveAgain _ | .recoverAgain _ | .ensureDeleted _ => true
  | _ => false

def ProvisionStage.recovering : ProvisionStage → Bool
  | .recover _ | .recoverAgain _ => true
  | _ => false

section Steps

variable {p : Reservation} {w₀ w w' : ProvisionWorld} {k : ProvisionWorker} {e : ProvisionEvent}
  {next : Option ProvisionStage} {stage : ProvisionStage}

theorem ProvisionStage.late_of_deleting (h : stage.deleting = true) : stage.late = true := by
  cases stage <;> simp_all [deleting, late]

/-- What a step of a worker does to the database and to Incus. -/
inductive Advanced (p : Reservation) (w : ProvisionWorld) (k : ProvisionWorker)
    (w' : ProvisionWorld) : Prop
  | same (db : w'.db = w.db) (hosts : w'.hosts = w.hosts) (history : w'.history = w.history)
  | deleted (stage : k.stage.deleting = true) (db : w'.db = w.db) (hosts : w'.hosts = w.hosts)
      (history : w'.history = w.history ++ [.deleted])
  | promoted (inst inst' : Instance) (row : w.row p = some inst)
      (creating : inst.status = .creating)
      (how : w.unclaimed p = true ∨ k.stage.recovering = true)
      (db : w'.db = w.db.setInstance p.instanceId inst')
      (provisioned : inst'.status.provisioned = true) (hosts : w'.hosts = w.hosts)
      (history : w'.history = w.history ++ [.promoted])
  | claimed (inst inst' : Instance) (row : w.row p = some inst)
      (creating : inst.status = .creating) (db : w'.db = w.db.setInstance p.instanceId inst')
      (status : inst'.status = .creating) (pending : inst'.provisioningCleanupPending = true)
      (hosts : w'.hosts = w.hosts) (history : w'.history = w.history)
  | settled (inst inst' : Instance) (refundAmount : Units) (row : w.row p = some inst)
      (creating : inst.status = .creating)
      (db : failCreatingInstanceAndRefund w.db w.env p.instanceId = .ok (w'.db, some refundAmount))
      (row' : w'.row p = some inst') (status : inst'.status = .error)
      (hosts : decrementHostResourceCounters w.hosts p.hostId p.resources = .ok w'.hosts)
      (history : w'.history = w.history ++ [.settled refundAmount])

theorem Db.updateInstance_eq_setInstance {db : Db} {id : ℕ} {inst : Instance}
    (h : db.instances id = some inst) (f : Instance → Instance) :
    db.updateInstance id f = db.setInstance id (f inst) := by
  simp [Db.updateInstance, Db.setInstance, h]

@[simp] theorem Db.setInstance_setInstance (db : Db) (id : ℕ) (inst inst' : Instance) :
    (db.setInstance id inst).setInstance id inst' = db.setInstance id inst' := by
  simp [Db.setInstance]

theorem Db.setInstance_self {db : Db} {id : ℕ} {inst : Instance}
    (h : db.instances id = some inst) : db.setInstance id inst = db := by
  simp [Db.setInstance, ← h]

@[simp] theorem Db.setInstance_instances_self (db : Db) (id : ℕ) (inst : Instance) :
    (db.setInstance id inst).instances id = some inst := by
  simp [Db.setInstance]

theorem markRunning_eq {db db' : Db} {id : ℕ} (h : markRunning db id = (db', true)) :
    ∃ inst, db.instances id = some inst ∧ inst.status = .creating ∧
      inst.provisioningCleanupPending = false ∧
      db' = db.setInstance id { inst with status := .running } := by
  simp only [markRunning] at h
  split at h
  · cases h
  rename_i inst hinst
  split at h
  · rename_i hcreating
    cases h
    exact ⟨inst, hinst, hcreating.1, hcreating.2, Db.updateInstance_eq_setInstance hinst _⟩
  · cases h

theorem markRunning_false {db db' : Db} {id : ℕ} (h : markRunning db id = (db', false)) :
    ∀ inst, db.instances id = some inst →
      ¬ (inst.status = .creating ∧ inst.provisioningCleanupPending = false) := by
  intro inst hinst hcreating
  simp [markRunning, hinst, hcreating] at h

theorem claimCreatingInstanceForCleanup_eq {db db' : Db} {id : ℕ} {reclaim : Bool}
    (h : claimCreatingInstanceForCleanup db id reclaim = (db', true)) :
    ∃ inst, db.instances id = some inst ∧ inst.status = .creating ∧
      db' = db.setInstance id
        { inst with provisioningCleanupPending := true, version := inst.version + 1 } := by
  simp only [claimCreatingInstanceForCleanup] at h
  split at h
  · cases h
  rename_i inst hinst
  split at h
  · rename_i hcreating
    cases h
    exact ⟨inst, hinst, hcreating.1, Db.updateInstance_eq_setInstance hinst _⟩
  · cases h

/-- A settlement takes a row that is `creating` to `error`. -/
theorem failCreatingInstanceAndRefund_row {db db' : Db} {env : Env} {id : ℕ} {refundAmount : Units}
    (h : failCreatingInstanceAndRefund db env id = .ok (db', some refundAmount)) :
    ∃ inst inst', db.instances id = some inst ∧ inst.status = .creating ∧
      db'.instances id = some inst' ∧ inst'.status = .error := by
  rcases failCreatingInstanceAndRefund_spec h with ⟨hnone, -⟩ | ⟨inst, hinst, hcreating, hrows, -⟩
  · cases hnone
  refine ⟨inst, { inst with
      status := .error, provisioningCleanupPending := false, version := inst.version + 1 },
    hinst, hcreating, ?_, rfl⟩
  rw [hrows, Db.updateInstance_eq_setInstance hinst, Db.setInstance_instances_self]

/-- A request of `ensureInstanceDeleted` changes nothing in the database; only
the deletion itself is recorded. -/
theorem ensureInstanceDeleted_cases {d : DeleteStage} {next : Option DeleteStage}
    (h : w.ensureInstanceDeleted d = (w', next)) :
    w'.db = w.db ∧ w'.hosts = w.hosts ∧
      (w'.history = w.history ∨ d = .delete ∧ w'.history = w.history ++ [.deleted]) := by
  cases d with
  | resolve probe =>
      simp only [ProvisionWorld.ensureInstanceDeleted] at h
      split at h <;> cases h <;> exact ⟨rfl, rfl, .inl rfl⟩
  | stop =>
      cases h
      exact ⟨rfl, rfl, .inl rfl⟩
  | delete =>
      simp only [ProvisionWorld.ensureInstanceDeleted] at h
      split at h <;> cases h
      · exact ⟨rfl, rfl, .inl rfl⟩
      · exact ⟨rfl, rfl, .inr ⟨rfl, rfl⟩⟩
  | confirm =>
      simp only [ProvisionWorld.ensureInstanceDeleted] at h
      split at h <;> cases h <;> exact ⟨rfl, rfl, .inl rfl⟩

theorem Advanced.of_ensureInstanceDeleted {d : DeleteStage} {next : Option DeleteStage}
    (h : w.ensureInstanceDeleted d = (w', next))
    (hstage : d = .delete → k.stage.deleting = true) : Advanced p w k w' := by
  obtain ⟨hdb, hhosts, hhistory | ⟨hd, hhistory⟩⟩ := ensureInstanceDeleted_cases h
  · exact .same hdb hhosts hhistory
  · exact .deleted (hstage hd) hdb hhosts hhistory

theorem Advanced.of_recover {status : ProvisionedStatus} {recovered : Bool}
    (h : w.recover p status = (w', recovered)) (hstage : k.stage.recovering = true) :
    Advanced p w k w' := by
  simp only [ProvisionWorld.recover] at h
  split at h
  · rename_i hcreating
    obtain ⟨inst, hinst, hstatus⟩ := Option.map_eq_some_iff.mp hcreating
    cases h
    refine .promoted inst { inst with
        status := status.toInstanceStatus, provisioningCleanupPending := false
        version := inst.version + 1 } hinst hstatus (.inr hstage) ?_ ?_ rfl rfl
    · have hrow : w.db.instances p.instanceId = some inst := hinst
      simp [markCreatingInstanceProvisioned, hrow, hstatus, ProvisionWorld.wrote,
        Db.updateInstance_eq_setInstance hrow]
    · cases status <;> rfl
  · cases h
    exact .same rfl rfl rfl

theorem Advanced.of_settle (h : w.settle p = some w') : Advanced p w k w' := by
  simp only [ProvisionWorld.settle] at h
  split at h
  · cases h
  · cases h
    exact .same rfl rfl rfl
  · rename_i db refundAmount hsettled
    split at h
    · cases h
    · rename_i hosts hhosts
      cases h
      obtain ⟨inst, inst', hrow, hcreating, hrow', herror⟩ :=
        failCreatingInstanceAndRefund_row hsettled
      exact .settled inst inst' refundAmount hrow hcreating hsettled hrow' herror hhosts rfl

theorem advanced_of_advance (h : w.advance p k = some (w', next)) : Advanced p w k w' := by
  obtain ⟨provisioner, reclaim, stage⟩ := k
  cases stage with
  | markRunning =>
      simp only [ProvisionWorld.advance] at h
      split at h <;> cases h
      · rename_i db hmark
        obtain ⟨inst, hinst, hcreating, hpending, rfl⟩ := markRunning_eq hmark
        have hunclaimed : w.unclaimed p = true := by
          simp [ProvisionWorld.unclaimed, ProvisionWorld.row, hinst, hcreating, hpending]
        exact .promoted inst _ hinst hcreating (.inl hunclaimed) rfl rfl rfl rfl
      · exact .same rfl rfl rfl
  | claim =>
      simp only [ProvisionWorld.advance] at h
      split at h <;> cases h
      · rename_i db hclaim
        obtain ⟨inst, hinst, hcreating, rfl⟩ := claimCreatingInstanceForCleanup_eq hclaim
        exact .claimed inst _ hinst hcreating rfl hcreating rfl rfl (List.append_nil _)
      · exact .same rfl rfl rfl
  | lateDelete d =>
      cases h
      refine .of_ensureInstanceDeleted (d := d) rfl ?_
      rintro rfl
      rfl
  | ensureDeleted d =>
      cases h
      refine .of_ensureInstanceDeleted (d := d) rfl ?_
      rintro rfl
      rfl
  | recover status =>
      cases h
      exact Advanced.of_recover (w := w) rfl rfl
  | recoverAgain status =>
      cases h
      exact Advanced.of_recover (w := w) rfl rfl
  | settle =>
      obtain ⟨w₁, hsettle, heq⟩ := Option.map_eq_some_iff.mp h
      cases heq
      exact .of_settle hsettle
  | createInstance | waitForCreatedInstance | startInstance | lateSuccess | announce
  | lateFailure | selected | resolve _ | resolveAgain _ =>
      -- requests to Incus and reads of the row
      simp only [ProvisionWorld.advance] at h
      (repeat' split at h) <;> cases h <;> exact .same rfl rfl rfl

/-! ## Promoted or settled -/

/-- What has become of the row, and what has been booked for it. -/
inductive ProvisionPhase (p : Reservation) (w₀ w : ProvisionWorld) : Prop
  | creating (inst : Instance) (db : w.db = w₀.db.setInstance p.instanceId inst)
      (status : inst.status = .creating) (hosts : w.hosts = w₀.hosts)
      (history : ∀ effect ∈ w.history, effect = .deleted)
  | promoted (inst : Instance) (db : w.db = w₀.db.setInstance p.instanceId inst)
      (status : inst.status.provisioned = true) (hosts : w.hosts = w₀.hosts)
      (history : ∀ effect ∈ w.history, effect = .promoted ∨ effect = .deleted)
  | settled (inst inst' : Instance) (env : Env) (refundAmount : Units)
      (db : failCreatingInstanceAndRefund (w₀.db.setInstance p.instanceId inst) env p.instanceId
        = .ok (w.db, some refundAmount))
      (row : w.row p = some inst') (status : inst'.status = .error)
      (hosts : decrementHostResourceCounters w₀.hosts p.hostId p.resources = .ok w.hosts)
      (unpromoted : .promoted ∉ w.history)
      (history : w.history.filter (·.isSettled) = [.settled refundAmount])

theorem row_of_db {inst : Instance} {db : Db} (h : w.db = db.setInstance p.instanceId inst) :
    w.row p = some inst := by
  rw [ProvisionWorld.row, h, Db.setInstance_instances_self]

/-- A step that writes neither the row nor the counters nor the history keeps the phase. -/
theorem ProvisionPhase.congr (h : ProvisionPhase p w₀ w) (hdb : w'.db = w.db)
    (hhosts : w'.hosts = w.hosts) (hhistory : w'.history = w.history) :
    ProvisionPhase p w₀ w' := by
  have hrow : w'.row p = w.row p := by simp only [ProvisionWorld.row, hdb]
  cases h with
  | creating inst db status hosts history =>
      exact .creating inst (hdb.trans db) status (hhosts.trans hosts) (hhistory ▸ history)
  | promoted inst db status hosts history =>
      exact .promoted inst (hdb.trans db) status (hhosts.trans hosts) (hhistory ▸ history)
  | settled inst inst' env refundAmount db row status hosts unpromoted history =>
      exact .settled inst inst' env refundAmount (hdb ▸ db) (hrow.trans row) status
        (hhosts ▸ hosts) (hhistory ▸ unpromoted) (hhistory ▸ history)

theorem ProvisionPhase.deleted (h : ProvisionPhase p w₀ w) (hdb : w'.db = w.db)
    (hhosts : w'.hosts = w.hosts) (hhistory : w'.history = w.history ++ [.deleted]) :
    ProvisionPhase p w₀ w' := by
  have hrow : w'.row p = w.row p := by simp only [ProvisionWorld.row, hdb]
  cases h with
  | creating inst db status hosts history =>
      refine .creating inst (hdb.trans db) status (hhosts.trans hosts) ?_
      intro effect heffect
      rw [hhistory, List.mem_append, List.mem_singleton] at heffect
      exact heffect.elim (history effect) id
  | promoted inst db status hosts history =>
      refine .promoted inst (hdb.trans db) status (hhosts.trans hosts) ?_
      intro effect heffect
      rw [hhistory, List.mem_append, List.mem_singleton] at heffect
      exact heffect.elim (history effect) .inr
  | settled inst inst' env refundAmount db row status hosts unpromoted history =>
      refine .settled inst inst' env refundAmount (hdb ▸ db) (hrow.trans row) status
        (hhosts ▸ hosts) ?_ ?_
      · simpa [hhistory] using unpromoted
      · simpa [hhistory, ProvisionEffect.isSettled] using history

/-- A row that is `creating` is in the first phase. -/
theorem ProvisionPhase.of_creating (h : ProvisionPhase p w₀ w) {inst : Instance}
    (hrow : w.row p = some inst) (hcreating : inst.status = .creating) :
    w.db = w₀.db.setInstance p.instanceId inst ∧ w.hosts = w₀.hosts ∧
      ∀ effect ∈ w.history, effect = .deleted := by
  cases h with
  | creating inst' db status hosts history =>
      obtain rfl : inst' = inst := Option.some.inj ((row_of_db db).symm.trans hrow)
      exact ⟨db, hosts, history⟩
  | promoted inst' db status hosts history =>
      obtain rfl : inst' = inst := Option.some.inj ((row_of_db db).symm.trans hrow)
      rw [hcreating] at status
      cases status
  | settled _ inst' _ _ _ row status =>
      obtain rfl : inst' = inst := Option.some.inj (row.symm.trans hrow)
      rw [hcreating] at status
      cases status

/-- So is a row that has been promoted in the second. -/
theorem ProvisionPhase.of_provisioned (h : ProvisionPhase p w₀ w) {inst : Instance}
    (hrow : w.row p = some inst) (hprovisioned : inst.status.provisioned = true) :
    w.db = w₀.db.setInstance p.instanceId inst ∧ w.hosts = w₀.hosts ∧
      ∀ effect ∈ w.history, effect = .promoted ∨ effect = .deleted := by
  cases h with
  | creating inst' db status hosts history =>
      obtain rfl : inst' = inst := Option.some.inj ((row_of_db db).symm.trans hrow)
      rw [status] at hprovisioned
      cases hprovisioned
  | promoted inst' db status hosts history =>
      obtain rfl : inst' = inst := Option.some.inj ((row_of_db db).symm.trans hrow)
      exact ⟨db, hosts, history⟩
  | settled _ inst' _ _ _ row status =>
      obtain rfl : inst' = inst := Option.some.inj (row.symm.trans hrow)
      rw [status] at hprovisioned
      cases hprovisioned

theorem ProvisionPhase.advanced (h : ProvisionPhase p w₀ w) (hadv : Advanced p w k w') :
    ProvisionPhase p w₀ w' := by
  cases hadv with
  | same db hosts history => exact h.congr db hosts history
  | deleted _ db hosts history => exact h.deleted db hosts history
  | promoted inst inst' row creating _ db provisioned hosts history =>
      obtain ⟨hdb, hhosts, hdeleted⟩ := h.of_creating row creating
      refine .promoted inst' ?_ provisioned (hosts.trans hhosts) ?_
      · rw [db, hdb, Db.setInstance_setInstance]
      · intro effect heffect
        rw [history, List.mem_append, List.mem_singleton] at heffect
        exact heffect.elim (fun h => .inr (hdeleted effect h)) .inl
  | claimed inst inst' row creating db status _ hosts history =>
      obtain ⟨hdb, hhosts, hdeleted⟩ := h.of_creating row creating
      refine .creating inst' ?_ status (hosts.trans hhosts) (history ▸ hdeleted)
      rw [db, hdb, Db.setInstance_setInstance]
  | settled inst inst' refundAmount row creating db row' status hosts history =>
      obtain ⟨hdb, hhosts, hdeleted⟩ := h.of_creating row creating
      refine .settled inst inst' w.env refundAmount (hdb ▸ db) row' status (hhosts ▸ hosts) ?_ ?_
      · intro hpromoted
        rw [history, List.mem_append, List.mem_singleton] at hpromoted
        rcases hpromoted with hold | hnew
        · cases hdeleted _ hold
        · cases hnew
      · have hnone : w.history.filter (·.isSettled) = [] := by
          refine List.filter_eq_nil_iff.mpr fun effect heffect => ?_
          rw [hdeleted effect heffect]
          decide
        rw [history, List.filter_append, hnone]
        rfl

/-! ## Where a worker goes -/

theorem ensureInstanceDeleted_workers (d : DeleteStage) :
    (w.ensureInstanceDeleted d).1.workers = w.workers := by
  cases d with
  | stop => rfl
  | resolve _ | delete | confirm =>
      simp only [ProvisionWorld.ensureInstanceDeleted]
      split <;> rfl

theorem recover_workers (status : ProvisionedStatus) :
    (w.recover p status).1.workers = w.workers := by
  simp only [ProvisionWorld.recover]
  split <;> rfl

theorem settle_workers (h : w.settle p = some w') : w'.workers = w.workers := by
  simp only [ProvisionWorld.settle] at h
  split at h
  · cases h
  · cases h
    rfl
  · split at h <;> cases h
    rfl

theorem advance_workers (h : w.advance p k = some (w', next)) : w'.workers = w.workers := by
  obtain ⟨provisioner, reclaim, stage⟩ := k
  cases stage with
  | lateDelete d | ensureDeleted d =>
      cases h
      exact ensureInstanceDeleted_workers d
  | recover status | recoverAgain status =>
      cases h
      exact recover_workers status
  | settle =>
      obtain ⟨w₁, hsettle, heq⟩ := Option.map_eq_some_iff.mp h
      cases heq
      exact settle_workers hsettle
  | createInstance | waitForCreatedInstance | startInstance | markRunning | lateSuccess | announce
  | lateFailure | selected | resolve _ | claim | resolveAgain _ =>
      simp only [ProvisionWorld.advance] at h
      (repeat' split at h) <;> cases h <;> rfl

theorem mem_goto {i : ℕ} {k' : ProvisionWorker} (h : k' ∈ (w.goto i k next).workers) :
    k' ∈ w.workers ∨ next = some k'.stage := by
  cases next with
  | none => exact .inl (List.mem_of_mem_eraseIdx h)
  | some stage =>
      rcases List.mem_or_eq_of_mem_set h with hold | rfl
      · exact .inl hold
      · exact .inr rfl

@[simp] theorem goto_db (i : ℕ) : (w.goto i k next).db = w.db := by cases next <;> rfl

@[simp] theorem goto_hosts (i : ℕ) : (w.goto i k next).hosts = w.hosts := by cases next <;> rfl

@[simp] theorem goto_history (i : ℕ) : (w.goto i k next).history = w.history := by
  cases next <;> rfl

theorem unclaimed_congr (h : w'.db = w.db) : w'.unclaimed p = w.unclaimed p := by
  simp only [ProvisionWorld.unclaimed, ProvisionWorld.row, h]

theorem provisioned_congr (h : w'.db = w.db) : w'.provisioned p = w.provisioned p := by
  simp only [ProvisionWorld.provisioned, ProvisionWorld.row, h]

theorem unclaimed_eq_false_iff : w.unclaimed p = false ↔ ∀ inst, w.row p = some inst →
    ¬ (inst.status = .creating ∧ inst.provisioningCleanupPending = false) := by
  cases h : w.row p <;> simp [ProvisionWorld.unclaimed, h]

theorem provisioned_eq_false_iff : w.provisioned p = false ↔
    ∀ inst, w.row p = some inst → inst.status.provisioned = false := by
  cases h : w.row p <;> simp [ProvisionWorld.provisioned, h]

/-- A worker gets past the claim only when the row has been claimed. -/
theorem late_of_advance (h : w.advance p k = some (w', some stage)) (hlate : stage.late = true) :
    k.stage.late = true ∨ w'.unclaimed p = false := by
  obtain ⟨provisioner, reclaim, stage₀⟩ := k
  cases stage₀ with
  | lateSuccess | lateDelete _ | resolveAgain _ | recoverAgain _ | ensureDeleted _ =>
      exact .inl rfl
  | markRunning =>
      right
      simp only [ProvisionWorld.advance] at h
      split at h <;> cases h
      · cases hlate
      · rename_i hmark
        exact unclaimed_eq_false_iff.mpr (markRunning_false hmark)
  | lateFailure =>
      right
      simp only [ProvisionWorld.advance] at h
      split at h
      · cases h
      rename_i inst hinst
      split at h <;> cases h
      rename_i hfailed
      refine unclaimed_eq_false_iff.mpr fun inst' hinst' hunclaimed => ?_
      obtain rfl := Option.some.inj (hinst.symm.trans hinst')
      rcases hfailed with herror | ⟨-, hpending⟩
      · rw [hunclaimed.1] at herror
        cases herror
      · rw [hunclaimed.2] at hpending
        cases hpending
  | claim =>
      right
      simp only [ProvisionWorld.advance] at h
      split at h
      · rename_i db hclaim
        cases h
        obtain ⟨inst, hinst, hcreating, rfl⟩ := claimCreatingInstanceForCleanup_eq hclaim
        refine unclaimed_eq_false_iff.mpr fun inst' hinst' hunclaimed => ?_
        obtain rfl := Option.some.inj ((Db.setInstance_instances_self _ _ _).symm.trans hinst')
        cases hunclaimed.2
      · simp only [Option.some.injEq, Prod.mk.injEq, ProvisionWorker.unclaimed] at h
        obtain ⟨-, hnext⟩ := h
        split at hnext <;> cases hnext
        cases hlate
  | recover status =>
      simp only [ProvisionWorld.advance, Option.some.injEq, Prod.mk.injEq] at h
      obtain ⟨-, hnext⟩ := h
      split at hnext <;> cases hnext
      cases hlate
  | settle =>
      obtain ⟨w₁, -, heq⟩ := Option.map_eq_some_iff.mp h
      cases heq
  | createInstance | waitForCreatedInstance | startInstance | announce | selected | resolve _ =>
      simp only [ProvisionWorld.advance] at h
      (repeat' split at h) <;> cases h <;> cases hlate

/-- A worker that decides to delete reads the row, or has claimed it, before any
promotion. -/
theorem deleting_of_advance {i : ℕ} (hi : w.workers[i]? = some k)
    (hok : keepsApart p w (.step i) = true) (h : w.advance p k = some (w', some stage))
    (hdeleting : stage.deleting = true) :
    k.stage.deleting = true ∨ w'.db = w.db ∧ w.provisioned p = false := by
  obtain ⟨provisioner, reclaim, stage₀⟩ := k
  simp only [keepsApart, hi] at hok
  cases stage₀ with
  | lateSuccess =>
      right
      simp only [ProvisionWorld.advance] at h
      split at h <;> cases h
      rename_i hrunning
      refine ⟨rfl, provisioned_eq_false_iff.mpr fun inst hinst => ?_⟩
      simp only [hinst, Option.all_some, Bool.and_eq_true, bne_iff_ne, ne_eq] at hok
      simp only [hinst, Option.map_some, Option.some.injEq] at hrunning
      cases hstatus : inst.status <;> simp_all [InstanceStatus.provisioned]
  | lateFailure =>
      right
      simp only [ProvisionWorld.advance] at h
      split at h
      · cases h
      rename_i inst hinst
      split at h <;> cases h
      rename_i hfailed
      refine ⟨rfl, provisioned_eq_false_iff.mpr fun inst' hinst' => ?_⟩
      obtain rfl := Option.some.inj (hinst.symm.trans hinst')
      rcases hfailed with herror | ⟨hcreating, -⟩
      · rw [herror]; rfl
      · rw [hcreating]; rfl
  | resolveAgain probe =>
      simp only [ProvisionWorld.advance] at h
      split at h
      · cases h
        cases hdeleting
      · cases h
        cases hdeleting
      · rename_i resolution hpresent hprobe
        cases h
        cases resolution with
        | present status => exact absurd rfl (hpresent status)
        | absent | failed =>
            simp only [hprobe, Bool.not_eq_true'] at hok
            exact .inr ⟨rfl, hok⟩
  | lateDelete d | ensureDeleted d =>
      -- a deletion that is not confirmed goes on
      left
      cases d with
      | confirm =>
          simp only [ProvisionWorld.advance, ProvisionWorld.ensureInstanceDeleted] at h
          split at h <;> cases h <;> cases hdeleting
      | resolve _ | stop | delete => rfl
  | markRunning | createInstance | waitForCreatedInstance | startInstance | announce | selected
  | resolve _ =>
      simp only [ProvisionWorld.advance] at h
      (repeat' split at h) <;> cases h <;> cases hdeleting
  | recover _ | recoverAgain _ | claim =>
      simp only [ProvisionWorld.advance, ProvisionWorker.unclaimed] at h
      (repeat' split at h) <;> cases h <;> cases hdeleting
  | settle =>
      obtain ⟨w₁, -, heq⟩ := Option.map_eq_some_iff.mp h
      cases heq

/-! ## Steps of the system -/

/-- A step is one of a worker, an ordinary operation on the promoted row, or it
writes nothing and lets no worker past the claim. -/
theorem provisionStep_cases (h : provisionStep p w e = some w') :
    (∃ i k w₁ next, e = .step i ∧ w.workers[i]? = some k ∧ w.advance p k = some (w₁, next) ∧
      w' = w₁.goto i k next) ∨
    (∃ inst inst', w.row p = some inst ∧ inst.status.provisioned = true ∧
      inst'.status.provisioned = true ∧ w' = w.wrote (w.db.setInstance p.instanceId inst') []) ∨
    (w'.db = w.db ∧ w'.hosts = w.hosts ∧ w'.history = w.history ∧
      ∀ k ∈ w'.workers, k ∈ w.workers ∨ k.stage.late = false) := by
  cases e with
  | tick env =>
      simp only [provisionStep] at h
      split at h <;> cases h
      exact .inr (.inr ⟨rfl, rfl, rfl, fun _ => .inl⟩)
  | incusChanges incus operations =>
      cases h
      exact .inr (.inr ⟨rfl, rfl, rfl, fun _ => .inl⟩)
  | operate status =>
      simp only [provisionStep] at h
      split at h
      · cases h
      rename_i inst hinst
      split at h <;> cases h
      rename_i hprovisioned
      simp only [Bool.and_eq_true] at hprovisioned
      refine .inr (.inl ⟨inst, { inst with status, version := inst.version + 1 }, hinst,
        hprovisioned.1, hprovisioned.2, ?_⟩)
      rw [Db.updateInstance_eq_setInstance hinst]
  | selectStuck =>
      simp only [provisionStep] at h
      split at h
      · cases h
      split at h <;> cases h
      refine .inr (.inr ⟨rfl, rfl, rfl, fun k hk => ?_⟩)
      rcases List.mem_append.mp hk with hold | hnew
      · exact .inl hold
      · rw [List.mem_singleton.mp hnew]
        exact .inr rfl
  | begin i =>
      simp only [provisionStep] at h
      split at h
      · cases h
      split at h <;> cases h
      refine .inr (.inr ⟨rfl, rfl, rfl, fun k hk => ?_⟩)
      rcases mem_goto hk with hold | hnext
      · exact .inl hold
      · rw [← Option.some.inj hnext]
        exact .inr rfl
  | step i =>
      simp only [provisionStep] at h
      split at h
      · cases h
      rename_i k hk
      obtain ⟨⟨w₁, next⟩, hadvance, rfl⟩ := Option.map_eq_some_iff.mp h
      exact .inl ⟨i, k, w₁, next, rfl, hk, hadvance, rfl⟩
  | fail i =>
      simp only [provisionStep] at h
      split at h
      · cases h
      rename_i k hk
      cases h
      refine .inr (.inr ⟨by simp, by simp, by simp, fun k' hk' => ?_⟩)
      rcases mem_goto hk' with hold | hnext
      · exact .inl hold
      · right
        obtain ⟨provisioner, reclaim, stage⟩ := k
        cases provisioner <;> cases stage <;>
          simp_all [ProvisionWorker.caught, ProvisionWorker.unclaimed] <;>
          simp [← hnext, ProvisionStage.late]

/-- The phases, along any run: no condition on the steps. -/
theorem provisionPhase_step (hphase : ProvisionPhase p w₀ w) (h : provisionStep p w e = some w') :
    ProvisionPhase p w₀ w' := by
  rcases provisionStep_cases h with
    ⟨i, k, w₁, next, -, -, hadvance, rfl⟩ | ⟨inst, inst', hrow, hwas, his, rfl⟩ |
      ⟨hdb, hhosts, hhistory, -⟩
  · exact (hphase.advanced (advanced_of_advance hadvance)).congr (by simp) (by simp) (by simp)
  · obtain ⟨hdb, hhosts, hhistory⟩ := hphase.of_provisioned hrow hwas
    refine .promoted inst' ?_ his hhosts ?_
    · simp only [ProvisionWorld.wrote]
      rw [hdb, Db.setInstance_setInstance]
    · simpa [ProvisionWorld.wrote] using hhistory
  · exact hphase.congr hdb hhosts hhistory

theorem ProvisionWorld.Fresh.phase (h : w₀.Fresh p) : ProvisionPhase p w₀ w₀ := by
  obtain ⟨inst, hrow, hcreating, -⟩ := h.row
  refine .creating inst (Db.setInstance_self hrow).symm hcreating rfl ?_
  simp [h.history]

/-- What keeps deletions away from a promoted instance. -/
structure Apart (p : Reservation) (w : ProvisionWorld) : Prop where
  late : w.unclaimed p = true → ∀ k ∈ w.workers, k.stage.late = false
  deleting : ∀ k ∈ w.workers, k.stage.deleting = true → w.provisioned p = false
  spared : w.Spared

theorem ProvisionPhase.promoted_notMem (h : ProvisionPhase p w₀ w)
    (hw : w.provisioned p = false) : .promoted ∉ w.history := by
  intro hmem
  cases h with
  | creating inst db status hosts history => cases history _ hmem
  | promoted inst db status =>
      rw [provisioned_eq_false_iff.mp hw inst (row_of_db db)] at status
      cases status
  | settled _ _ _ _ _ _ _ _ unpromoted => exact unpromoted hmem

theorem ProvisionWorld.Spared.append (h : w.Spared) {effect : ProvisionEffect}
    (hhistory : w'.history = w.history ++ [effect])
    (hnew : .promoted ∈ w.history → effect ≠ .deleted) : w'.Spared := by
  rw [ProvisionWorld.Spared, hhistory, List.pairwise_append]
  refine ⟨h, List.pairwise_singleton _ _, fun a ha b hb => ?_⟩
  obtain rfl := List.mem_singleton.mp hb
  rintro ⟨rfl, hdeleted⟩
  exact hnew ha hdeleted

theorem ProvisionWorld.Spared.congr (h : w.Spared) (hhistory : w'.history = w.history) :
    w'.Spared := by
  rw [ProvisionWorld.Spared, hhistory]
  exact h

/-- A step of a worker that is allowed keeps deletions away: it is taken before
the promotion if it deletes, and while none deletes if it promotes. -/
theorem Apart.advanced {i : ℕ} (hphase : ProvisionPhase p w₀ w) (h : Apart p w)
    (hi : w.workers[i]? = some k) (hok : keepsApart p w (.step i) = true)
    (hadv : Advanced p w k w') (hworkers : w'.workers = w.workers) : Apart p w' := by
  have hk : k ∈ w.workers := List.mem_of_getElem? hi
  cases hadv with
  | same db hosts history =>
      refine ⟨?_, ?_, h.spared.congr history⟩
      · rw [unclaimed_congr db, hworkers]
        exact h.late
      · rw [provisioned_congr db, hworkers]
        exact h.deleting
  | deleted stage db hosts history =>
      refine ⟨?_, ?_, h.spared.append history fun hmem => ?_⟩
      · rw [unclaimed_congr db, hworkers]
        exact h.late
      · rw [provisioned_congr db, hworkers]
        exact h.deleting
      · exact absurd hmem (hphase.promoted_notMem (h.deleting k hk stage))
  | promoted inst inst' row creating how db provisioned hosts history =>
      have hrow' := row_of_db db
      refine ⟨fun hunclaimed => ?_, ?_, h.spared.append history fun _ => by decide⟩
      · simp only [ProvisionWorld.unclaimed, hrow', Option.any_some, Bool.and_eq_true,
          beq_iff_eq] at hunclaimed
        rw [hunclaimed.1] at provisioned
        cases provisioned
      · -- none was deleting as the row was promoted
        rw [hworkers]
        intro k' hk' hdeleting
        exfalso
        rcases how with hunclaimed | hrecovering
        · have hearly := h.late hunclaimed k' hk'
          rw [ProvisionStage.late_of_deleting hdeleting] at hearly
          cases hearly
        · simp only [keepsApart, hi] at hok
          have hall : w.workers.all (!·.stage.deleting) = true := by
            cases hstage : k.stage <;> simp_all [ProvisionStage.recovering]
          have hnot := List.all_eq_true.mp hall k' hk'
          simp only [hdeleting] at hnot
          cases hnot
  | claimed inst inst' row creating db status pending hosts history =>
      have hrow' := row_of_db db
      refine ⟨fun hunclaimed => ?_, fun k' hk' hdeleting => ?_, h.spared.congr history⟩
      · simp [ProvisionWorld.unclaimed, hrow', pending] at hunclaimed
      · simp [ProvisionWorld.provisioned, hrow', status, InstanceStatus.provisioned]
  | settled inst inst' refundAmount row creating db row' status hosts history =>
      refine ⟨fun hunclaimed => ?_, fun k' hk' hdeleting => ?_,
        h.spared.append history fun _ => by simp⟩
      · simp [ProvisionWorld.unclaimed, row', status] at hunclaimed
      · simp [ProvisionWorld.provisioned, row', status, InstanceStatus.provisioned]

theorem apart_step (hphase : ProvisionPhase p w₀ w) (h : Apart p w)
    (hok : keepsApart p w e = true) (hs : provisionStep p w e = some w') : Apart p w' := by
  rcases provisionStep_cases hs with
    ⟨i, k, w₁, next, rfl, hi, hadvance, rfl⟩ | ⟨inst, inst', hrow, hwas, his, rfl⟩ |
      ⟨hdb, hhosts, hhistory, hworkers⟩
  · -- the worker's own step, then the stage it goes to
    have hk : k ∈ w.workers := List.mem_of_getElem? hi
    have hkeep := advance_workers hadvance
    have h₁ := h.advanced hphase hi hok (advanced_of_advance hadvance) hkeep
    refine ⟨fun hunclaimed k' hk' => ?_, fun k' hk' hdeleting => ?_, h₁.spared.congr (by simp)⟩
    · rw [unclaimed_congr (goto_db i)] at hunclaimed
      rcases mem_goto hk' with hold | rfl
      · exact h₁.late hunclaimed k' hold
      · by_contra hlate
        rw [Bool.not_eq_false] at hlate
        rcases late_of_advance hadvance hlate with hwas | hclaimed
        · have hearly := h₁.late hunclaimed k (hkeep ▸ hk)
          rw [hwas] at hearly
          cases hearly
        · rw [hclaimed] at hunclaimed
          cases hunclaimed
    · rw [provisioned_congr (goto_db i)]
      rcases mem_goto hk' with hold | rfl
      · exact h₁.deleting k' hold hdeleting
      · rcases deleting_of_advance hi hok hadvance hdeleting with hwas | ⟨hdb, hnot⟩
        · exact h₁.deleting k (hkeep ▸ hk) hwas
        · rw [provisioned_congr hdb]
          exact hnot
  · -- an ordinary operation finds the row promoted and leaves it so
    have hprovisioned : w.provisioned p = true := by
      simp [ProvisionWorld.provisioned, hrow, hwas]
    refine ⟨fun hunclaimed => ?_, fun k' hk' hdeleting => ?_, h.spared.congr (List.append_nil _)⟩
    · simp only [ProvisionWorld.unclaimed, ProvisionWorld.row, ProvisionWorld.wrote,
        Db.setInstance_instances_self, Option.any_some, Bool.and_eq_true, beq_iff_eq] at hunclaimed
      rw [hunclaimed.1] at his
      cases his
    · rw [h.deleting k' hk' hdeleting] at hprovisioned
      cases hprovisioned
  · refine ⟨fun hunclaimed k hk => ?_, fun k hk hdeleting => ?_, h.spared.congr hhistory⟩
    · rw [unclaimed_congr hdb] at hunclaimed
      exact (hworkers k hk).elim (h.late hunclaimed k) id
    · rw [provisioned_congr hdb]
      rcases hworkers k hk with hold | hearly
      · exact h.deleting k hold hdeleting
      · rw [ProvisionStage.late_of_deleting hdeleting] at hearly
        cases hearly

theorem ProvisionWorld.Fresh.apart (h : w₀.Fresh p) : Apart p w₀ := by
  refine ⟨fun _ => ?_, ?_, ?_⟩
  · simp [h.workers, ProvisionStage.late]
  · simp [h.workers, ProvisionStage.deleting]
  · simp [ProvisionWorld.Spared, h.history]

theorem ProvisionPhase.safe (h : ProvisionPhase p w₀ w) (hspared : w.Spared) :
    ProvisionSafe p w₀ w := by
  refine ⟨?_, ?_, ?_, hspared⟩
  · rintro refundAmount ⟨hpromoted, hsettled⟩
    cases h with
    | creating inst db status hosts history => cases history _ hpromoted
    | promoted inst db status hosts history =>
        rcases history _ hsettled with h | h <;> cases h
    | settled _ _ _ _ _ _ _ _ unpromoted => exact unpromoted hpromoted
  · intro inst hrow herror
    cases h with
    | creating inst' db status =>
        obtain rfl : inst' = inst := Option.some.inj ((row_of_db db).symm.trans hrow)
        rw [herror] at status
        cases status
    | promoted inst' db status =>
        obtain rfl : inst' = inst := Option.some.inj ((row_of_db db).symm.trans hrow)
        rw [herror] at status
        cases status
    | settled inst inst' env refundAmount db row status hosts unpromoted history =>
        exact ⟨refundAmount, inst, env, history, db, hosts⟩
  · intro inst hrow hstatus
    cases h with
    | creating inst' db status hosts history =>
        obtain rfl : inst' = inst := Option.some.inj ((row_of_db db).symm.trans hrow)
        refine ⟨List.filter_eq_nil_iff.mpr fun effect heffect => ?_, db, hosts⟩
        rw [history effect heffect]
        decide
    | promoted inst' db status hosts history =>
        obtain rfl : inst' = inst := Option.some.inj ((row_of_db db).symm.trans hrow)
        refine ⟨List.filter_eq_nil_iff.mpr fun effect heffect => ?_, db, hosts⟩
        rcases history effect heffect with rfl | rfl <;> decide
    | settled _ inst' _ _ _ row status =>
        obtain rfl : inst' = inst := Option.some.inj (row.symm.trans hrow)
        exact absurd status hstatus

/-- In every run whose steps keep promotion and deletion apart, the provision is
promoted or refunded and not both, it is refunded once when it has failed, and
it is not deleted on Incus once it has been promoted. -/
theorem provision_settled_once (hfresh : w₀.Fresh p)
    (h : Machine.Reach (provisionStep p) (keepsApart p · ·) w₀ w) : ProvisionSafe p w₀ w := by
  have hinv := h.invariant (P := fun w => ProvisionPhase p w₀ w ∧ Apart p w)
    ⟨hfresh.phase, hfresh.apart⟩ fun hinv hok hs =>
      ⟨provisionPhase_step hinv.1 hs, apart_step hinv.1 hinv.2 hok hs⟩
  exact hinv.1.safe hinv.2.spared

/-! ## Three runs -/

/-- User 1 has bought instance 5 on host 10 for 50 yuan. -/
def boughtProvision : Reservation :=
  { instanceId := 5, hostId := 10, resources := { cpu := 100, memory := 1024, disk := 10240 } }

def boughtWorld : ProvisionWorld where
  db :=
    { users := fun
        | 1 => some { balance := 0 }
        | 2 => some {}
        | _ => none
      hosts := fun
        | 10 => some { userId := 2 }
        | _ => none
      instances := fun
        | 5 => some { userId := 1, hostId := 10, status := .creating }
        | _ => none
      billingRecords :=
        [{ id := 1, instanceId := 5, userId := 1, type := .newPurchase, amount := 5000
           periodStart := 0, periodEnd := 0, createdAt := 0 }] }
  hosts := fun
    | 10 => some
        { cpuAllowanceMax := some 800, memoryMax := some 65536
          used := { cpu := 300, memory := 4096, disk := 40960 } }
    | _ => none
  env := { now := 0 }
  updatedAt := 0
  workers := [{ provisioner := true, stage := .createInstance }]

theorem boughtWorld_fresh : boughtWorld.Fresh boughtProvision :=
  ⟨⟨_, rfl, rfl, rfl⟩, rfl, rfl⟩

/-- A creation that fails on Incus, with the timeout worker at the row as well. -/
theorem provision_settled_once_failed :
    ∃ w, Machine.Reach (provisionStep boughtProvision) (keepsApart boughtProvision · ·)
        boughtWorld w ∧
      w.history = [.settled (toUnits 5000)] ∧ ProvisionSafe boughtProvision boughtWorld w := by
  have hexec : (Machine.exec
      (Machine.guarded (provisionStep boughtProvision) (keepsApart boughtProvision)) boughtWorld
      [.tick { now := 660000 }, .selectStuck, .begin 1, .fail 0, .step 0, .step 0, .step 0, .step 0,
        .step 0, .step 0, .step 0, .step 1, .step 0, .step 0, .step 0]).map (·.history)
      = some [.settled (toUnits 5000)] := by decide +kernel
  obtain ⟨w, hw, hhistory⟩ := Option.map_eq_some_iff.mp hexec
  have hrun := Machine.reach_of_exec_guarded hw
  exact ⟨w, hrun, hhistory, provision_settled_once boughtWorld_fresh hrun⟩

/-- The timeout worker recovers the row, its owner stops the instance, and the
provisioner, which finds a row that is not `running`, deletes it. -/
theorem late_success_deletes_stopped :
    ∃ w, Machine.Reach (provisionStep boughtProvision) Machine.free boughtWorld w ∧
      w.history = [.promoted, .deleted] ∧ ¬ ProvisionSafe boughtProvision boughtWorld w := by
  have hexec : (Machine.exec (provisionStep boughtProvision) boughtWorld
      [.step 0, .step 0, .step 0, .tick { now := 660000 }, .selectStuck, .begin 1, .step 1, .step 1,
        .operate .stopped, .step 0, .step 0, .step 0, .step 0, .step 0]).map (·.history)
      = some [.promoted, .deleted] := by decide +kernel
  obtain ⟨w, hw, hhistory⟩ := Option.map_eq_some_iff.mp hexec
  refine ⟨w, Machine.reach_of_exec hw, hhistory, fun h => ?_⟩
  have hspared := h.spared
  rw [ProvisionWorld.Spared, hhistory] at hspared
  exact absurd hspared (by decide)

/-- The provisioner has claimed the row and found nothing on Incus; the instance
appears, the timeout worker recovers the row, and the provisioner deletes it. -/
theorem recovery_overtakes_cleanup :
    ∃ w, Machine.Reach (provisionStep boughtProvision) Machine.free boughtWorld w ∧
      w.history = [.promoted, .deleted] := by
  have hexec : (Machine.exec (provisionStep boughtProvision) boughtWorld
      [.tick { now := 660000 }, .selectStuck, .begin 1, .fail 0, .step 0, .step 0, .step 0, .step 0,
        .step 0, .incusChanges (some .running) false, .step 1, .step 1, .step 0, .step 0,
        .step 0]).map (·.history)
      = some [.promoted, .deleted] := by decide +kernel
  obtain ⟨w, hw, hhistory⟩ := Option.map_eq_some_iff.mp hexec
  exact ⟨w, Machine.reach_of_exec hw, hhistory⟩

end Steps

end Incudal
