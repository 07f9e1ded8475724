/-
# `HostExclusion` — what runs together on a host

The three queues keep out of each other's way by reading each other's rows in
`PROCESSING` under the host's lock.  The rows stand for the workers as long as
no step takes the row of a running worker out of `PROCESSING`.  The instance
queue is careful about that: a lease that expires puts its task in quarantine,
still in `PROCESSING`.  The timeout sweeps of restores and uploads are not:
they fail the row and leave the worker running.

`leavesWorkers` is the condition on a step that it takes no row from a running
worker; in the runs that meet it the host belongs to one heavy worker at a
time (`hosts_exclusive`).
-/
import Incudal.TaskOwnership
import Mathlib

namespace Incudal

/-- No worker is executing the task. -/
def TaskWorld.idle (w : TaskWorld) (key : TaskKey) : Bool := w.executions.all (·.key != key)

/-- The step takes no row out of `PROCESSING` while a worker executes its task. -/
def leavesWorkers (w : TaskWorld) : TaskEvent → Bool
  | .writeCancel taskId => w.idle (.instanceTask taskId)
  | .writeRecover recovery =>
      w.db.instanceTasks.all fun t =>
        !recovery.task.recoveredBy w.now t || w.idle (.instanceTask t.id)
  | .sweepTimeoutHost queue =>
      (w.db.hostTasks queue).all fun t => !t.timedOut queue w.now || w.idle (.hostTask queue t.id)
  | .sweepStaleHost queue =>
      (w.db.hostTasks queue).all fun t =>
        !(t.status == .processing) || w.idle (.hostTask queue t.id)
  | _ => true

/-- The worker executes a start, a stop or a restart. -/
def TaskWorld.LightExecution (w : TaskWorld) (ex : TaskExecution) : Prop :=
  ∃ r, w.db.row ex.key = some r ∧ r.light = true

/-- Every running worker has its row in `PROCESSING`; workers that run together
on a host execute light tasks; and no claim is marked on the host of a worker
that executes anything else. -/
structure HostExclusive (w : TaskWorld) : Prop where
  running : ∀ ex ∈ w.executions, ∃ r, w.db.row ex.key = some r ∧ r.status = .processing ∧
    r.hostId = ex.hostId
  together : ∀ ex ∈ w.executions, ∀ ex' ∈ w.executions, ex.hostId = ex'.hostId →
    ex = ex' ∨ (w.LightExecution ex ∧ w.LightExecution ex')
  blocked : ∀ ex ∈ w.executions, ¬ w.LightExecution ex → ∀ claim token,
    claim.hostId = ex.hostId → taskStep w (.mark claim token) = none

def TaskKey.id : TaskKey → ℕ
  | .instanceTask id => id
  | .hostTask _ id => id

/-! ## What one step does to a row -/

section Exclusion

variable {w₀ w w' : TaskWorld} {e : TaskEvent} {k : TaskKey}

/-- What holds of a claim until it is marked: its task waits on its host, and
only light tasks are processing there, and only beside a light task. -/
structure ClaimOk (db : TaskDb) (c : TaskClaim) : Prop where
  old : c.key.id < db.nextId
  row : ∀ r, db.row c.key = some r → r.hostId = c.hostId ∧ r.status ≠ .processing
  alone : ∀ r, db.row c.key = some r → ∀ k r', db.row k = some r' → r'.status = .processing →
    r'.hostId = c.hostId → r'.light = true ∧ r.light = true

structure ExclInv (w : TaskWorld) : Prop where
  owned : TaskInv w
  hostIds : ∀ queue, ((w.db.hostTasks queue).map HostTask.id).Nodup
  hostOld : ∀ queue, ∀ t ∈ w.db.hostTasks queue, t.id < w.db.nextId
  claims : ∀ c ∈ w.claims, ClaimOk w.db c
  apart : ∀ k r k' r', w.db.row k = some r → w.db.row k' = some r' → r.status = .processing →
    r'.status = .processing → r.hostId = r'.hostId → k = k' ∨ (r.light = true ∧ r'.light = true)
  execRow : ∀ ex ∈ w.executions, ∃ r, w.db.row ex.key = some r ∧ r.status = .processing ∧
    r.hostId = ex.hostId ∧ ∀ id, ex.key = .instanceTask id → r.token = some ex.token
  execKeys : (w.executions.map TaskExecution.key).Nodup

/-- The row of a task of any queue before and after a step. -/
inductive RowChange (w : TaskWorld) (e : TaskEvent) (w' : TaskWorld) (k : TaskKey) :
    Option TaskRow → Option TaskRow → Prop
  | same (row : Option TaskRow) : RowChange w e w' k row row
  | created {r : TaskRow} (new : k.id = w.db.nextId) (status : r.status = .pending) :
      RowChange w e w' k none (some r)
  | deleted {r : TaskRow} (finished : r.status ≠ .processing) : RowChange w e w' k (some r) none
  | left {r r' : TaskRow} (host : r'.hostId = r.hostId) (light : r'.light = r.light)
      (after : r'.status ≠ .processing)
      (gone : r.status = .processing → ∀ ex ∈ w'.executions, ex.key ≠ k) :
      RowChange w e w' k (some r) (some r')
  | marked {r r' : TaskRow} {claim : TaskClaim} {token : String} (event : e = .mark claim token)
      (key : claim.key = k) (host : r'.hostId = r.hostId) (light : r'.light = r.light)
      (after : r'.status = .processing)
      (token : ∀ id, k = .instanceTask id → r'.token = some token) :
      RowChange w e w' k (some r) (some r')

/-- The workers before and after a step. -/
inductive ExecChange (w : TaskWorld) (e : TaskEvent) (w' : TaskWorld) : Prop
  | fewer (executions : w'.executions.Sublist w.executions)
  | marked {claim : TaskClaim} {token : String} (event : e = .mark claim token)
      (executions : w'.executions = claim.execution token :: w.executions) : ExecChange w e w'

theorem idle_of_all {α : Type} {l : List α} {p : α → Bool} {f : α → TaskKey} {a : α}
    (h : (l.all fun t => !p t || w.idle (f t)) = true) (ha : a ∈ l) (hp : p a = true) :
    ∀ ex ∈ w.executions, ex.key ≠ f a := by
  intro ex hex
  have := List.all_eq_true.mp h a ha
  simp only [hp, Bool.not_true, Bool.false_or] at this
  simpa using List.all_eq_true.mp this ex hex

theorem execChange_of_step (hs : taskStep w e = some w') : ExecChange w e w' := by
  cases e with
  | mark claim token =>
      simp only [taskStep] at hs
      split at hs
      · obtain ⟨db, -, rfl⟩ := Option.map_eq_some_iff.mp hs
        exact .marked rfl rfl
      · cases hs
  | finish k token outcome =>
      cases hs
      exact .fewer List.filter_sublist
  | stop ex =>
      cases hs
      exact .fewer List.erase_sublist
  | finishHost ex queue k result =>
      simp only [taskStep] at hs
      split at hs
      · obtain ⟨db, -, rfl⟩ := Option.map_eq_some_iff.mp hs
        exact .fewer List.erase_sublist
      · cases hs
  | claimLight h k =>
      obtain ⟨c, -, -, rfl⟩ := takeLocks_eq hs
      exact .fewer (List.Sublist.refl _)
  | claimNext h k =>
      obtain ⟨c, -, -, rfl⟩ := takeLocks_eq hs
      exact .fewer (List.Sublist.refl _)
  | claimNextHost queue h k =>
      obtain ⟨c, -, -, rfl⟩ := takeLocks_eq hs
      exact .fewer (List.Sublist.refl _)
  | createInstanceTask i h u type =>
      obtain ⟨db, -, rfl⟩ := Option.map_eq_some_iff.mp hs
      exact .fewer (List.Sublist.refl _)
  | createHostTask queue i h u =>
      obtain ⟨db, -, rfl⟩ := Option.map_eq_some_iff.mp hs
      exact .fewer (List.Sublist.refl _)
  | readRecover k isAdmin force =>
      obtain ⟨task, -, rfl⟩ := Option.map_eq_some_iff.mp hs
      exact .fewer (List.Sublist.refl _)
  | advance | readCancel =>
      simp only [taskStep] at hs
      split at hs
      · cases hs
        exact .fewer (List.Sublist.refl _)
      · cases hs
  | writeCancel | writeRecover =>
      simp only [taskStep] at hs
      split at hs
      · obtain ⟨db, -, rfl⟩ := Option.map_eq_some_iff.mp hs
        exact .fewer (List.Sublist.refl _)
      · cases hs
  | _ => cases hs; exact .fewer (List.Sublist.refl _)

/-! ### Rows of the instance queue -/

theorem row_instanceTask {db : TaskDb} {id : ℕ} :
    db.row (.instanceTask id) = (db.instanceTask id).map (·.row) := rfl

theorem row_hostTask {db : TaskDb} {queue : HostQueue} {id : ℕ} :
    db.row (.hostTask queue id) = (db.hostTask queue id).map (·.row) := rfl

theorem light_of_same {task task' : InstanceTask} (h : SameTask task task') :
    task'.row.light = task.row.light := by
  show decide (task'.taskType ∈ lightTaskNames) = decide (task.taskType ∈ lightTaskNames)
  rw [h.taskType]

/-- The worker that ends an instance task under its token is the one that was
executing it. -/
theorem gone_of_finish {id : ℕ} {task : InstanceTask} {token : String} {outcome : TaskOutcome}
    (hinv : ExclInv w) (hs : taskStep w (.finish id token outcome) = some w')
    (htask : w.db.instanceTask id = some task)
    (htoken : task.executionToken = some token) :
    ∀ ex ∈ w'.executions, ex.key ≠ .instanceTask id := by
  cases hs
  intro ex hex hkey
  obtain ⟨hmem, hkept⟩ := List.mem_filter.mp hex
  obtain ⟨r, hr, -, -, hex'⟩ := hinv.execRow ex hmem
  rw [hkey, row_instanceTask, htask] at hr
  obtain rfl := Option.some.inj hr
  have : some token = some ex.token := htoken.symm.trans (hex' id hkey)
  simp [hkey, Option.some.inj this] at hkept

theorem rowChange_instanceTask {id : ℕ} (hinv : ExclInv w) (hok : leavesWorkers w e = true)
    (hs : taskStep w e = some w') :
    RowChange w e w' (.instanceTask id) (w.db.row (.instanceTask id))
      (w'.db.row (.instanceTask id)) := by
  have hc : TaskChange w e id (w.db.instanceTask id) (w'.db.instanceTask id) :=
    taskChange_of_step hinv.owned.ids hinv.owned.old hs
  rw [row_instanceTask, row_instanceTask]
  cases hbefore : w.db.instanceTask id with
  | none =>
      rw [hbefore] at hc
      cases hafter : w'.db.instanceTask id with
      | none => exact .same none
      | some task' =>
          rw [hafter] at hc
          cases hc with
          | created new status => exact .created new status
  | some task =>
      rw [hbefore] at hc
      cases hafter : w'.db.instanceTask id with
      | none =>
          rw [hafter] at hc
          cases hc with
          | deleted finished =>
              refine .deleted fun h => ?_
              simp only [InstanceTask.row] at h
              simp [TaskStatus.isActive, h] at finished
      | some task' =>
          rw [hafter] at hc
          cases hc with
          | same => exact .same _
          | edited before after same token =>
              have : task'.row = task.row := by
                simp only [InstanceTask.row, same.hostId, same.taskType, before, after, token]
              simp only [Option.map_some, this]
              exact .same _
          | @finished _ _ token outcome event active same after =>
              subst event
              simp only [InstanceTask.activeExecution, Bool.and_eq_true, beq_iff_eq] at active
              refine .left same.hostId (light_of_same same) (fun h => ?_)
                fun _ => gone_of_finish hinv hs hbefore active.1.2
              simp only [InstanceTask.row] at h
              simp [TaskStatus.isActive, h] at after
          | @recovered _ _ r event found addressed before forced same after =>
              subst event
              refine .left same.hostId (light_of_same same) (fun h => ?_) fun _ ex hex hkey => ?_
              · simp only [InstanceTask.row, after] at h
                cases h
              · obtain ⟨hmem, hid⟩ := Keyed.mem_of_lookup hbefore
                have hidle := idle_of_all hok hmem addressed
                have hsame : w'.executions = w.executions := by
                  simp only [taskStep] at hs
                  split at hs
                  · obtain ⟨db, -, rfl⟩ := Option.map_eq_some_iff.mp hs
                    rfl
                  · cases hs
                exact hidle ex (hsame ▸ hex) (by rw [hkey, hid])
          | cancelled event same after =>
              subst event
              refine .left same.hostId (light_of_same same) (fun h => ?_) fun _ ex hex hkey => ?_
              · simp only [InstanceTask.row, after] at h
                cases h
              · have hsame : w'.executions = w.executions := by
                  simp only [taskStep] at hs
                  split at hs
                  · obtain ⟨db, -, rfl⟩ := Option.map_eq_some_iff.mp hs
                    rfl
                  · cases hs
                have := List.all_eq_true.mp hok ex (hsame ▸ hex)
                simp [hkey] at this
          | marked event key same after token =>
              refine .marked event key same.hostId (light_of_same same) after fun id' hid => ?_
              exact token

/-! ### Rows of the other queues -/

theorem hostTask_updateHostTasks {db : TaskDb} {queue q : HostQueue} {id : ℕ}
    {p : HostTask → Bool} {f : HostTask → HostTask} (hf : ∀ t, (f t).id = t.id) :
    (db.updateHostTasks queue p f).hostTask q id
      = (db.hostTask q id).map fun t => if q = queue ∧ p t then f t else t := by
  simp only [TaskDb.updateHostTasks, TaskDb.hostTask]
  by_cases hq : q = queue
  · subst hq
    simp only [Function.update_self, true_and]
    refine Keyed.lookup_map fun t => ?_
    split
    · exact hf t
    · rfl
  · rw [Function.update_of_ne hq]
    simp [hq]

/-- `updateMany` on a queue without a lease, row by row. -/
theorem rowChange_updateHostTasks {queue q : HostQueue} {id : ℕ} {p : HostTask → Bool}
    {f : HostTask → HostTask} (hdb : w'.db = w.db.updateHostTasks queue p f)
    (hf : ∀ t, (f t).id = t.id)
    (h : ∀ t ∈ w.db.hostTasks q, t.id = id → q = queue → p t = true →
      RowChange w e w' (.hostTask q id) (some t.row) (some (f t).row)) :
    RowChange w e w' (.hostTask q id) (w.db.row (.hostTask q id)) (w'.db.row (.hostTask q id)) := by
  rw [row_hostTask, row_hostTask, hdb, hostTask_updateHostTasks hf]
  cases hrow : w.db.hostTask q id with
  | none => exact .same none
  | some t =>
      simp only [Option.map_some]
      split
      · rename_i hp
        obtain ⟨hmem, hid⟩ := Keyed.mem_of_lookup hrow
        exact h t hmem hid hp.1 hp.2
      · exact .same _

theorem rowChange_of_eq {q : HostQueue} {id : ℕ} (h : w'.db.hostTasks = w.db.hostTasks) :
    RowChange w e w' (.hostTask q id) (w.db.row (.hostTask q id)) (w'.db.row (.hostTask q id)) := by
  have : w'.db.row (.hostTask q id) = w.db.row (.hostTask q id) := by
    simp only [TaskDb.row, TaskDb.hostTask, h]
  rw [this]
  exact .same _

theorem id_hostTask_finish (result : HostTaskEnd) (now : Time) (t : HostTask) :
    (t.finish result now).id = t.id ∧ (t.finish result now).hostId = t.hostId ∧
      (t.finish result now).status ≠ .processing := by
  cases result <;> exact ⟨rfl, rfl, nofun⟩

/-- The write at a worker's end, by the id of its row. -/
theorem finishHostTask_eq {db db' : TaskDb} {queue : HostQueue} {k : ℕ} {result : HostTaskEnd}
    {now : Time} (h : finishHostTask db queue k result now = some db') :
    db' = db.updateHostTasks queue (·.id == k) (·.finish result now) := by
  unfold finishHostTask at h
  split at h
  · cases h
  split at h
  · split at h
    · cases h
      rfl
    · cases h
  · cases h
    rfl

theorem rowChange_hostTask {q : HostQueue} {id : ℕ} (hinv : ExclInv w)
    (hok : leavesWorkers w e = true) (hs : taskStep w e = some w') :
    RowChange w e w' (.hostTask q id) (w.db.row (.hostTask q id)) (w'.db.row (.hostTask q id)) := by
  cases e with
  | createHostTask queue i h u =>
      obtain ⟨db, hdb, rfl⟩ := Option.map_eq_some_iff.mp hs
      unfold createHostTask at hdb
      split at hdb
      · cases hdb
      cases hdb
      rw [row_hostTask, row_hostTask]
      by_cases hq : q = queue
      · subst hq
        have hfresh : ∀ t ∈ w.db.hostTasks q, t.id ≠ w.db.nextId :=
          fun t ht => (hinv.hostOld q t ht).ne
        simp only [TaskDb.hostTask, Function.update_self]
        rw [Keyed.lookup_append_singleton hfresh]
        split
        · rename_i hid
          have hnone : Keyed.lookup HostTask.id id (w.db.hostTasks q) = none :=
            Keyed.lookup_eq_none_iff.mpr fun t ht => hid ▸ hfresh t ht
          rw [hnone]
          exact .created hid.symm rfl
        · exact .same _
      · simp only [TaskDb.hostTask, Function.update_of_ne hq]
        exact .same _
  | mark claim token =>
      simp only [taskStep] at hs
      split at hs
      · obtain ⟨db, hdb, rfl⟩ := Option.map_eq_some_iff.mp hs
        unfold markProcessing at hdb
        split at hdb
        · split at hdb
          · cases hdb
          split at hdb
          · cases hdb
          split at hdb
          · cases hdb
          cases hdb
          exact rowChange_of_eq rfl
        · rename_i queue k hkey
          split at hdb
          · cases hdb
          split at hdb
          · cases hdb
          cases hdb
          refine rowChange_updateHostTasks rfl (fun _ => rfl) fun t _ hid hq hp => ?_
          obtain rfl : id = k := hid.symm.trans (by simpa using hp)
          exact .marked rfl (by rw [hkey, hq]) rfl rfl rfl (by rintro _ ⟨⟩)
      · cases hs
  | sweepTimeoutHost queue =>
      cases hs
      refine rowChange_updateHostTasks rfl (fun _ => rfl) fun t ht hid hq hp => ?_
      subst hq
      have hidle := idle_of_all hok ht hp
      rw [hid] at hidle
      exact .left rfl rfl (by rintro ⟨⟩) fun _ => hidle
  | sweepStaleHost queue =>
      cases hs
      refine rowChange_updateHostTasks rfl (fun _ => rfl) fun t ht hid hq hp => ?_
      subst hq
      have hidle := idle_of_all hok ht hp
      rw [hid] at hidle
      exact .left rfl rfl (by rintro ⟨⟩) fun _ => hidle
  | progressHost queue k progress =>
      cases hs
      refine rowChange_updateHostTasks rfl (fun _ => rfl) fun t _ _ _ _ => ?_
      exact .same _
  | finishHost ex queue k result =>
      simp only [taskStep] at hs
      split at hs
      · rename_i hex
        obtain ⟨db, hdb, rfl⟩ := Option.map_eq_some_iff.mp hs
        refine rowChange_updateHostTasks (finishHostTask_eq hdb)
          (fun t => (id_hostTask_finish result w.now t).1) fun t _ hid hq hp => ?_
        obtain rfl : id = k := hid.symm.trans (by simpa using hp)
        subst hq
        have hend := id_hostTask_finish result w.now t
        refine .left hend.2.1 rfl hend.2.2 fun _ ex' hex' hkey => ?_
        -- only this worker was executing the task
        have hperm := (List.perm_cons_erase hex.1).map TaskExecution.key
        have hcons := hperm.nodup_iff.mp hinv.execKeys
        simp only [List.map_cons, List.nodup_cons] at hcons
        exact hcons.1 (hex.2.trans hkey.symm ▸ List.mem_map_of_mem hex')
      · cases hs
  | deleteFinished i =>
      cases hs
      rw [row_hostTask, row_hostTask]
      simp only [deleteFinishedTasks, TaskDb.hostTask]
      rw [Keyed.lookup_filter (hinv.hostIds q)]
      cases hrow : Keyed.lookup HostTask.id id (w.db.hostTasks q) with
      | none => exact .same none
      | some t =>
          simp only [Option.filter]
          split
          · exact .same _
          · rename_i hp
            refine .deleted fun h => hp ?_
            simp only [HostTask.row] at h
            simp [TaskStatus.isActive, h]
  | claimLight h k =>
      obtain ⟨c, -, -, rfl⟩ := takeLocks_eq hs
      exact rowChange_of_eq rfl
  | claimNext h k =>
      obtain ⟨c, -, -, rfl⟩ := takeLocks_eq hs
      exact rowChange_of_eq rfl
  | claimNextHost queue h k =>
      obtain ⟨c, -, -, rfl⟩ := takeLocks_eq hs
      exact rowChange_of_eq rfl
  | createInstanceTask i h u type =>
      obtain ⟨db, hdb, rfl⟩ := Option.map_eq_some_iff.mp hs
      unfold createInstanceTask at hdb
      split at hdb
      · cases hdb
      cases hdb
      exact rowChange_of_eq rfl
  | readRecover k isAdmin force =>
      obtain ⟨task, -, rfl⟩ := Option.map_eq_some_iff.mp hs
      exact rowChange_of_eq rfl
  | advance | readCancel =>
      simp only [taskStep] at hs
      split at hs
      · cases hs
        exact rowChange_of_eq rfl
      · cases hs
  | writeCancel k =>
      simp only [taskStep] at hs
      split at hs
      · obtain ⟨db, hdb, rfl⟩ := Option.map_eq_some_iff.mp hs
        unfold cancelInstanceTask at hdb
        split at hdb
        · cases hdb
        cases hdb
        exact rowChange_of_eq rfl
      · cases hs
  | writeRecover r =>
      simp only [taskStep] at hs
      split at hs
      · obtain ⟨db, hdb, rfl⟩ := Option.map_eq_some_iff.mp hs
        unfold recoverInstanceTask at hdb
        split at hdb
        · cases hdb
        split at hdb
        · cases hdb
        cases hdb
        exact rowChange_of_eq rfl
      · cases hs
  | _ => cases hs; exact rowChange_of_eq rfl

theorem rowChange_of_step (hinv : ExclInv w) (hok : leavesWorkers w e = true)
    (hs : taskStep w e = some w') (k : TaskKey) :
    RowChange w e w' k (w.db.row k) (w'.db.row k) := by
  cases k with
  | instanceTask id => exact rowChange_instanceTask hinv hok hs
  | hostTask q id => exact rowChange_hostTask hinv hok hs

/-! ## The invariant -/

def TaskDb.hostTaskIds (db : TaskDb) (queue : HostQueue) : List ℕ :=
  (db.hostTasks queue).map HostTask.id

theorem hostTaskIds_updateHostTasks {db : TaskDb} {queue q : HostQueue} {p : HostTask → Bool}
    {f : HostTask → HostTask} (hf : ∀ t, (f t).id = t.id) :
    (db.updateHostTasks queue p f).hostTaskIds q = db.hostTaskIds q := by
  simp only [TaskDb.hostTaskIds, TaskDb.updateHostTasks]
  by_cases hq : q = queue
  · subst hq
    simp only [Function.update_self, List.map_map]
    refine List.map_congr_left fun t _ => ?_
    simp only [Function.comp_apply]
    split
    · exact hf t
    · rfl
  · rw [Function.update_of_ne hq]

/-- The tables of a queue grow by the next id only. -/
inductive HostTableChange (w w' : TaskWorld) (q : HostQueue) : Prop
  | fewer (ids : (w'.db.hostTaskIds q).Sublist (w.db.hostTaskIds q))
  | created (ids : w'.db.hostTaskIds q = w.db.hostTaskIds q ++ [w.db.nextId])
      (nextId : w'.db.nextId = w.db.nextId + 1) : HostTableChange w w' q

theorem hostTableChange_of_eq {q : HostQueue} (h : w'.db.hostTasks = w.db.hostTasks) :
    HostTableChange w w' q := by
  refine .fewer ?_
  simp only [TaskDb.hostTaskIds, h]
  exact List.Sublist.refl _

theorem hostTableChange_update {queue q : HostQueue} {p : HostTask → Bool}
    {f : HostTask → HostTask} (hdb : w'.db = w.db.updateHostTasks queue p f)
    (hf : ∀ t, (f t).id = t.id) : HostTableChange w w' q := by
  refine .fewer ?_
  rw [hdb, hostTaskIds_updateHostTasks hf]

theorem hostTableChange_of_step (hs : taskStep w e = some w') (q : HostQueue) :
    HostTableChange w w' q := by
  cases e with
  | createHostTask queue i h u =>
      obtain ⟨db, hdb, rfl⟩ := Option.map_eq_some_iff.mp hs
      unfold createHostTask at hdb
      split at hdb
      · cases hdb
      cases hdb
      by_cases hq : q = queue
      · subst hq
        refine .created ?_ rfl
        simp [TaskDb.hostTaskIds]
      · refine .fewer ?_
        simp only [TaskDb.hostTaskIds, Function.update_of_ne hq]
        exact List.Sublist.refl _
  | mark claim token =>
      simp only [taskStep] at hs
      split at hs
      · obtain ⟨db, hdb, rfl⟩ := Option.map_eq_some_iff.mp hs
        unfold markProcessing at hdb
        split at hdb
        · split at hdb
          · cases hdb
          split at hdb
          · cases hdb
          split at hdb
          · cases hdb
          cases hdb
          exact hostTableChange_of_eq rfl
        · split at hdb
          · cases hdb
          split at hdb
          · cases hdb
          cases hdb
          exact hostTableChange_update rfl fun _ => rfl
      · cases hs
  | sweepTimeoutHost queue =>
      cases hs
      exact hostTableChange_update rfl fun _ => rfl
  | sweepStaleHost queue =>
      cases hs
      exact hostTableChange_update rfl fun _ => rfl
  | progressHost queue k progress =>
      cases hs
      exact hostTableChange_update rfl fun _ => rfl
  | finishHost ex queue k result =>
      simp only [taskStep] at hs
      split at hs
      · obtain ⟨db, hdb, rfl⟩ := Option.map_eq_some_iff.mp hs
        exact hostTableChange_update (finishHostTask_eq hdb)
          fun t => (id_hostTask_finish result w.now t).1
      · cases hs
  | deleteFinished i =>
      cases hs
      exact .fewer (List.Sublist.map _ List.filter_sublist)
  | claimLight h k =>
      obtain ⟨c, -, -, rfl⟩ := takeLocks_eq hs
      exact hostTableChange_of_eq rfl
  | claimNext h k =>
      obtain ⟨c, -, -, rfl⟩ := takeLocks_eq hs
      exact hostTableChange_of_eq rfl
  | claimNextHost queue h k =>
      obtain ⟨c, -, -, rfl⟩ := takeLocks_eq hs
      exact hostTableChange_of_eq rfl
  | createInstanceTask i h u type =>
      obtain ⟨db, hdb, rfl⟩ := Option.map_eq_some_iff.mp hs
      unfold createInstanceTask at hdb
      split at hdb
      · cases hdb
      cases hdb
      exact hostTableChange_of_eq rfl
  | readRecover k isAdmin force =>
      obtain ⟨task, -, rfl⟩ := Option.map_eq_some_iff.mp hs
      exact hostTableChange_of_eq rfl
  | advance | readCancel =>
      simp only [taskStep] at hs
      split at hs
      · cases hs
        exact hostTableChange_of_eq rfl
      · cases hs
  | writeCancel k =>
      simp only [taskStep] at hs
      split at hs
      · obtain ⟨db, hdb, rfl⟩ := Option.map_eq_some_iff.mp hs
        unfold cancelInstanceTask at hdb
        split at hdb
        · cases hdb
        cases hdb
        exact hostTableChange_of_eq rfl
      · cases hs
  | writeRecover r =>
      simp only [taskStep] at hs
      split at hs
      · obtain ⟨db, hdb, rfl⟩ := Option.map_eq_some_iff.mp hs
        unfold recoverInstanceTask at hdb
        split at hdb
        · cases hdb
        split at hdb
        · cases hdb
        cases hdb
        exact hostTableChange_of_eq rfl
      · cases hs
  | _ => cases hs; exact hostTableChange_of_eq rfl

theorem inv_hostTables (hinv : ExclInv w) (hs : taskStep w e = some w') (q : HostQueue) :
    (w'.db.hostTaskIds q).Nodup ∧ ∀ id ∈ w'.db.hostTaskIds q, id < w'.db.nextId := by
  have hold : ∀ id ∈ w.db.hostTaskIds q, id < w.db.nextId := by
    intro id hid
    obtain ⟨t, ht, rfl⟩ := List.mem_map.mp hid
    exact hinv.hostOld q t ht
  cases hostTableChange_of_step hs q with
  | fewer ids =>
      refine ⟨(hinv.hostIds q).sublist ids, fun id hid => ?_⟩
      exact (hold id (ids.subset hid)).trans_le (tableGrows_of_step hs).nextId
  | created ids nextId =>
      rw [ids, nextId]
      constructor
      · refine List.nodup_append.mpr ⟨hinv.hostIds q, List.nodup_singleton _, ?_⟩
        intro a ha b hb
        rw [List.mem_singleton.mp hb]
        exact (hold a ha).ne
      · exact Keyed.below_concat hold (Nat.le_succ _) (Nat.lt_succ_self _)

theorem exclInv_taskStart (h : w.TaskStart) : ExclInv w := by
  have hrow : ∀ k, w.db.row k = none := by
    intro k
    cases k with
    | instanceTask id => simp [TaskDb.row, TaskDb.instanceTask, h.instanceTasks, Keyed.lookup]
    | hostTask q id => simp [TaskDb.row, TaskDb.hostTask, h.hostTasks, Keyed.lookup]
  exact
    { owned := inv_taskStart h
      hostIds := fun q => by simp [h.hostTasks]
      hostOld := fun q => by simp [h.hostTasks]
      claims := by simp [h.claims]
      apart := by simp [hrow]
      execRow := by simp [h.executions]
      execKeys := by simp [h.executions] }

/-- Where a row after a step comes from. -/
theorem RowChange.back {before after : Option TaskRow} {r' : TaskRow}
    (h : RowChange w e w' k before after) (hr : after = some r') :
    (before = none ∧ k.id = w.db.nextId ∧ r'.status = .pending) ∨
      ∃ r, before = some r ∧ r'.hostId = r.hostId ∧ r'.light = r.light ∧
        (r'.status = .processing →
          r.status = .processing ∨ ∃ claim token, e = .mark claim token ∧ claim.key = k) := by
  cases h with
  | same => exact .inr ⟨r', hr, rfl, rfl, fun hp => .inl hp⟩
  | created new status =>
      cases hr
      exact .inl ⟨rfl, new, status⟩
  | deleted finished => cases hr
  | left host light after gone =>
      cases hr
      exact .inr ⟨_, rfl, host, light, fun hp => absurd hp after⟩
  | marked event key host light after token =>
      cases hr
      exact .inr ⟨_, rfl, host, light, fun _ => .inr ⟨_, _, event, key⟩⟩

/-- The row of a running worker stays as it is. -/
theorem RowChange.stays {before after : Option TaskRow} {r : TaskRow}
    (h : RowChange w e w' k before after) (hr : before = some r) (hp : r.status = .processing)
    (hex : ∃ ex ∈ w'.executions, ex.key = k)
    (hmark : ∀ claim token, e = .mark claim token → claim.key ≠ k) : after = some r := by
  obtain ⟨ex, hmem, hkey⟩ := hex
  cases h with
  | same => exact hr
  | created new status => cases hr
  | deleted finished =>
      cases hr
      exact absurd hp finished
  | left host light after gone =>
      cases hr
      exact absurd hkey (gone hp ex hmem)
  | marked event key host light after token => exact absurd key (hmark _ _ event)

/-- The row that a mark of a restore or an upload leaves. -/
theorem markProcessing_hostRow {db db' : TaskDb} {now : Time} {token : String} {q : HostQueue}
    {id : ℕ} (h : markProcessing db now token (.hostTask q id) = some db') :
    ∃ t, db.hostTask q id = some t ∧
      db'.hostTask q id = some { t with status := .processing, startedAt := some now } := by
  simp only [markProcessing] at h
  split at h
  · cases h
  rename_i t ht
  split at h
  · cases h
  cases h
  refine ⟨t, ht, ?_⟩
  rw [hostTask_updateHostTasks (f := fun t => { t with status := .processing, startedAt := some now })
    fun _ => rfl, ht]
  simp [(Keyed.mem_of_lookup ht).2]

/-- What a mark does. -/
theorem mark_eq {claim : TaskClaim} {token : String}
    (hs : taskStep w (.mark claim token) = some w') :
    claim ∈ w.claims ∧ w'.executions = claim.execution token :: w.executions ∧
      w'.claims = w.claims.erase claim ∧
      ∃ r r', w.db.row claim.key = some r ∧ w'.db.row claim.key = some r' ∧
        r'.hostId = r.hostId ∧ r'.light = r.light ∧ r'.status = .processing ∧
        ∀ id, claim.key = .instanceTask id → r'.token = some token := by
  simp only [taskStep] at hs
  split at hs
  · rename_i hmem
    obtain ⟨db, hdb, rfl⟩ := Option.map_eq_some_iff.mp hs
    refine ⟨hmem, rfl, rfl, ?_⟩
    cases hkey : claim.key with
    | instanceTask id =>
        rw [hkey] at hdb
        obtain ⟨task, htask, htask'⟩ := markProcessing_row hdb
        refine ⟨task.row, (task.markProcessing w.now token).row, ?_, ?_, rfl, rfl, rfl,
          fun _ _ => rfl⟩
        · rw [row_instanceTask, Option.mem_def.mp htask, Option.map_some]
        · rw [row_instanceTask, htask', Option.map_some]
    | hostTask queue id =>
        rw [hkey] at hdb
        obtain ⟨t, ht, ht'⟩ := markProcessing_hostRow hdb
        refine ⟨t.row, HostTask.row { t with status := .processing, startedAt := some w.now },
          ?_, ?_, rfl, rfl, rfl, by rintro _ ⟨⟩⟩
        · rw [row_hostTask, ht, Option.map_some]
        · rw [row_hostTask, ht', Option.map_some]
  · cases hs

theorem ClaimOk.step {c : TaskClaim} (h : ClaimOk w.db c) (hs : taskStep w e = some w')
    (hrow : ∀ k, RowChange w e w' k (w.db.row k) (w'.db.row k))
    (hother : ∀ claim token, e = .mark claim token → claim.hostId ≠ c.hostId ∧
      ∀ r, w.db.row claim.key = some r → r.hostId = claim.hostId) : ClaimOk w'.db c := by
  -- a row on the claim's host is in `PROCESSING` only if it was
  have hback : ∀ k r', w'.db.row k = some r' → r'.status = .processing → r'.hostId = c.hostId →
      ∃ r, w.db.row k = some r ∧ r'.light = r.light ∧ r.hostId = c.hostId ∧
        r.status = .processing := by
    intro k r' hr' hp hhost
    rcases (hrow k).back hr' with ⟨-, -, hpending⟩ | ⟨r, hr, hhost', hlight, hwas⟩
    · rw [hpending] at hp
      cases hp
    · refine ⟨r, hr, hlight, hhost'.symm.trans hhost, ?_⟩
      rcases hwas hp with h | ⟨claim, token, he, rfl⟩
      · exact h
      · obtain ⟨hne, hclaim⟩ := hother claim token he
        exact absurd ((hclaim r hr).symm.trans (hhost'.symm.trans hhost)) hne
  have hown : ∀ r', w'.db.row c.key = some r' →
      ∃ r, w.db.row c.key = some r ∧ r'.hostId = r.hostId ∧ r'.light = r.light := by
    intro r' hr'
    rcases (hrow c.key).back hr' with ⟨-, hnew, -⟩ | ⟨r, hr, hhost, hlight, -⟩
    · exact absurd hnew h.old.ne
    · exact ⟨r, hr, hhost, hlight⟩
  refine ⟨h.old.trans_le (tableGrows_of_step hs).nextId, ?_, ?_⟩
  · intro r' hr'
    obtain ⟨r, hr, hhost, -⟩ := hown r' hr'
    have hat : r'.hostId = c.hostId := hhost.trans (h.row r hr).1
    refine ⟨hat, fun hp => ?_⟩
    obtain ⟨r₂, hr₂, -, -, hp₂⟩ := hback c.key r' hr' hp hat
    exact (h.row r₂ hr₂).2 hp₂
  · intro r' hr' k q' hq' hp hat
    obtain ⟨r, hr, -, hlight⟩ := hown r' hr'
    obtain ⟨q, hq, hqlight, hqhost, hqp⟩ := hback k q' hq' hp hat
    rw [hlight, hqlight]
    exact h.alone r hr k q hq hqp hqhost

theorem ExclInv.row_old {r : TaskRow} (hinv : ExclInv w) (hr : w.db.row k = some r) :
    k.id < w.db.nextId := by
  cases k with
  | instanceTask id =>
      obtain ⟨t, ht, -⟩ := Option.map_eq_some_iff.mp hr
      obtain ⟨hmem, rfl⟩ := Keyed.mem_of_lookup ht
      exact hinv.owned.old t hmem
  | hostTask q id =>
      obtain ⟨t, ht, -⟩ := Option.map_eq_some_iff.mp hr
      obtain ⟨hmem, rfl⟩ := Keyed.mem_of_lookup ht
      exact hinv.hostOld q t hmem

/-- Before a step, a claim that is under way after it: an old one or one whose
checks have just passed. -/
theorem claims_of_step (hinv : ExclInv w) (hs : taskStep w e = some w') :
    ∀ c ∈ w'.claims, ClaimOk w.db c ∧ ∀ claim token, e = .mark claim token →
      claim.hostId ≠ c.hostId := by
  intro c hc
  by_cases hmark : ∃ claim token, e = .mark claim token
  · obtain ⟨claim, token, rfl⟩ := hmark
    obtain ⟨hmem, -, hclaims, -⟩ := mark_eq hs
    rw [hclaims] at hc
    obtain ⟨hc, hne⟩ := mem_claims_erase hinv.owned.hosts hc
    refine ⟨hinv.claims c hc, fun claim' token' he hhost => hne ?_⟩
    cases he
    exact (List.inj_on_of_nodup_map hinv.owned.hosts hmem hc hhost).symm
  · refine ⟨?_, fun claim token he => absurd ⟨claim, token, he⟩ hmark⟩
    cases claimChange_of_step hs with
    | same claims claimed => exact hinv.claims c (claims ▸ hc)
    | marked mem claims => exact hinv.claims c (List.mem_of_mem_erase (claims ▸ hc))
    | abandoned c' claims => exact hinv.claims c (List.mem_of_mem_erase (claims ▸ hc))
    | begun db free claims claimed checked =>
        rw [claims] at hc
        rcases List.mem_cons.mp hc with rfl | hc
        · obtain ⟨r, hr, hpending, hhost⟩ := checked.row
          refine ⟨?_, fun r' hr' => ?_, fun r' hr' k q hq hp hat => ?_⟩
          · exact hinv.row_old hr
          · rw [hr] at hr'
            cases hr'
            exact ⟨hhost, fun hp => by rw [hpending] at hp; cases hp⟩
          · obtain ⟨hlight, hown⟩ := checked.exclusive k q hq hp hat
            exact ⟨hlight, hown r' hr'⟩
        · exact hinv.claims c hc

theorem exclInv_taskStep (hinv : ExclInv w) (hok : leavesWorkers w e = true)
    (hs : taskStep w e = some w') : ExclInv w' := by
  have hrow := rowChange_of_step hinv hok hs
  have hclaim : ∀ claim token, e = .mark claim token → claim ∈ w.claims ∧
      ∀ r, w.db.row claim.key = some r → r.hostId = claim.hostId ∧ r.status ≠ .processing := by
    rintro claim token rfl
    have hmem := (mark_eq hs).1
    exact ⟨hmem, (hinv.claims claim hmem).row⟩
  refine ⟨inv_taskStep hinv.owned hs, fun q => (inv_hostTables hinv hs q).1, ?_, ?_, ?_, ?_, ?_⟩
  · exact fun q t ht => (inv_hostTables hinv hs q).2 _ (List.mem_map_of_mem ht)
  · intro c hc
    obtain ⟨hc, hother⟩ := claims_of_step hinv hs c hc
    exact hc.step hs hrow fun claim token he =>
      ⟨hother claim token he, fun r hr => ((hclaim claim token he).2 r hr).1⟩
  · intro k r' k' q' hr' hq' hp hp' hhost
    rcases (hrow k).back hr' with ⟨-, -, h⟩ | ⟨r, hr, hrhost, hrlight, hrwas⟩
    · rw [h] at hp
      cases hp
    rcases (hrow k').back hq' with ⟨-, -, h⟩ | ⟨q, hq, hqhost, hqlight, hqwas⟩
    · rw [h] at hp'
      cases hp'
    have hat : r.hostId = q.hostId := hrhost.symm.trans (hhost.trans hqhost)
    rw [hrlight, hqlight]
    rcases hrwas hp with hrp | ⟨claim, token, he, rfl⟩
    · rcases hqwas hp' with hqp | ⟨claim, token, he, rfl⟩
      · exact hinv.apart k r k' q hr hq hrp hqp hat
      · obtain ⟨hmem, hown⟩ := hclaim claim token he
        exact .inr ((hinv.claims claim hmem).alone q hq k r hr hrp (hat.trans (hown q hq).1))
    · obtain ⟨hmem, hown⟩ := hclaim claim token he
      rcases hqwas hp' with hqp | ⟨claim', token', he', rfl⟩
      · obtain ⟨h₁, h₂⟩ :=
          (hinv.claims claim hmem).alone r hr k' q hq hqp (hat.symm.trans (hown r hr).1)
        exact .inr ⟨h₂, h₁⟩
      · rw [he] at he'
        cases he'
        exact .inl rfl
  · -- a worker that was running keeps its row
    have hold : ∀ ex ∈ w.executions, ex ∈ w'.executions → ∃ r, w'.db.row ex.key = some r ∧
        r.status = .processing ∧ r.hostId = ex.hostId ∧
        ∀ id, ex.key = .instanceTask id → r.token = some ex.token := by
      intro ex hex hex'
      obtain ⟨r, hr, hp, h⟩ := hinv.execRow ex hex
      refine ⟨r, (hrow ex.key).stays hr hp ⟨ex, hex', rfl⟩ fun claim token he hkey => ?_, hp, h⟩
      exact ((hclaim claim token he).2 r (hkey ▸ hr)).2 hp
    intro ex hex
    cases execChange_of_step hs with
    | fewer executions => exact hold ex (executions.subset hex) hex
    | @marked claim token event executions =>
        subst event
        have hex' := hex
        rw [executions] at hex'
        rcases List.mem_cons.mp hex' with rfl | hmem
        · obtain ⟨hmem, -, -, r, r', hr, hr', hhost, -, hp, htoken⟩ := mark_eq hs
          refine ⟨r', hr', hp, ?_, htoken⟩
          exact hhost.trans ((hinv.claims claim hmem).row r hr).1
        · exact hold ex hmem hex
  · cases execChange_of_step hs with
    | fewer executions => exact hinv.execKeys.sublist (List.Sublist.map _ executions)
    | @marked claim token event executions =>
        rw [executions, List.map_cons, List.nodup_cons]
        refine ⟨fun hin => ?_, hinv.execKeys⟩
        obtain ⟨ex, hex, hkey⟩ := List.mem_map.mp hin
        obtain ⟨r, hr, hp, -⟩ := hinv.execRow ex hex
        exact ((hclaim claim token event).2 r (by rw [← hr, hkey]; rfl)).2 hp

theorem hostExclusive_of_inv (hinv : ExclInv w) : HostExclusive w := by
  refine ⟨?_, ?_, ?_⟩
  · intro ex hex
    obtain ⟨r, hr, hp, hhost, -⟩ := hinv.execRow ex hex
    exact ⟨r, hr, hp, hhost⟩
  · intro ex hex ex' hex' hhost
    obtain ⟨r, hr, hp, hat, -⟩ := hinv.execRow ex hex
    obtain ⟨r', hr', hp', hat', -⟩ := hinv.execRow ex' hex'
    have hsame : r.hostId = r'.hostId := hat.trans (hhost.trans hat'.symm)
    rcases hinv.apart _ r _ r' hr hr' hp hp' hsame with hkey | ⟨hlight, hlight'⟩
    · exact .inl (List.inj_on_of_nodup_map hinv.execKeys hex hex' hkey)
    · exact .inr ⟨⟨r, hr, hlight⟩, ⟨r', hr', hlight'⟩⟩
  · intro ex hex hheavy claim token hhost
    by_contra hne
    obtain ⟨w', hs⟩ := Option.ne_none_iff_exists'.mp hne
    obtain ⟨hmem, -, -, rc, -, hrc, -⟩ := mark_eq hs
    obtain ⟨r, hr, hp, hat, -⟩ := hinv.execRow ex hex
    have := (hinv.claims claim hmem).alone rc hrc ex.key r hr hp (hat.trans hhost.symm)
    exact hheavy ⟨r, hr, this.1⟩

/-- In every run whose steps take no row from a running worker, a host is kept
by the worker of a heavy task, a restore or an upload until it has ended. -/
theorem hosts_exclusive (hstart : w₀.TaskStart)
    (hrun : Machine.Reach taskStep (leavesWorkers · ·) w₀ w) : HostExclusive w :=
  hostExclusive_of_inv <|
    hrun.invariant (exclInv_taskStart hstart) fun hinv hok hs => exclInv_taskStep hinv hok hs

/-! ## Two runs -/

/-- The claim of a restore of the instance. -/
def restoreClaim : TaskClaim := { key := .hostTask .restore 1, hostId := 3, instanceId := 7 }

/-- While a restore is running, a restart is created and waits. -/
theorem hosts_exclusive_restore :
    ∃ w, Machine.Reach taskStep (leavesWorkers · ·) idleTasks w ∧
      w.executions = [restoreClaim.execution ""] ∧ HostExclusive w := by
  have hexec : (Machine.exec (Machine.guarded taskStep leavesWorkers) idleTasks
      [.createHostTask .restore 7 3 1, .claimNextHost .restore 3 1, .mark restoreClaim "",
        .createInstanceTask 7 3 1 .restart, .advance 600001]).map (·.executions)
      = some [restoreClaim.execution ""] := by decide +kernel
  obtain ⟨w, hw, hexecutions⟩ := Option.map_eq_some_iff.mp hexec
  have hrun := Machine.reach_of_exec_guarded hw
  exact ⟨w, hrun, hexecutions, hosts_exclusive idleTasks_start hrun⟩

/-- A restart on another instance of the host. -/
def otherClaim : TaskClaim := { key := .instanceTask 2, hostId := 3, instanceId := 8 }

/-- A restore runs for more than ten minutes: the sweep fails its row, and the
next claim finds the host free while the worker is still at it. -/
theorem timeout_sweep_frees_host :
    ∃ w w', Machine.Reach taskStep Machine.free idleTasks w ∧
      restoreClaim.execution "" ∈ w.executions ∧ taskStep w (.mark otherClaim "t") = some w' ∧
      ¬ HostExclusive w := by
  have hexec : ((Machine.exec taskStep idleTasks
      [.setInstance 8 (some .running), .createHostTask .restore 7 3 1,
        .claimNextHost .restore 3 1, .mark restoreClaim "", .advance 600001,
        .sweepTimeoutHost .restore, .createInstanceTask 8 3 1 .restart, .claimLight 3 2]).bind
          fun w => (taskStep w (.mark otherClaim "t")).map fun _ =>
            decide (restoreClaim.execution "" ∈ w.executions)) = some true := by decide +kernel
  obtain ⟨w, hw, hstep⟩ := Option.bind_eq_some_iff.mp hexec
  obtain ⟨w', hw', hmem⟩ := Option.map_eq_some_iff.mp hstep
  have hrunning := of_decide_eq_true hmem
  refine ⟨w, w', Machine.reach_of_exec hw, hrunning, hw', fun h => ?_⟩
  have hheavy : ¬ w.LightExecution (restoreClaim.execution "") := by
    rintro ⟨r, hr, hlight⟩
    obtain ⟨t, -, rfl⟩ := Option.map_eq_some_iff.mp hr
    cases hlight
  have hnone := h.blocked _ hrunning hheavy otherClaim "t" rfl
  rw [hnone] at hw'
  cases hw'

end Exclusion

end Incudal
