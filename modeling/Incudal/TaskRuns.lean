/-
# `TaskRuns` — runs of the task queues

The state of a run is the tables, the clock, and what is under way: claim
transactions between their checks and their mark, cancellations and recoveries
between their read and their write, and executions, which start with the mark
of a claim and end when their worker writes its result or stops.
-/
import Incudal.TaskQueues

namespace Incudal

/-- A recovery that has read its row. -/
structure TaskRecovery where
  task : InstanceTask
  isAdmin : Bool
  force : Bool
deriving DecidableEq, Repr

/-- A worker that executes a claimed task; `token` is that of an instance task. -/
structure TaskExecution where
  key : TaskKey
  hostId : ℕ
  token : String
deriving DecidableEq, Repr

structure TaskWorld where
  db : TaskDb
  now : Time
  claims : List TaskClaim := []
  cancellations : List ℕ := []
  recoveries : List TaskRecovery := []
  executions : List TaskExecution := []
  /-- the tasks that have been claimed so far, latest first -/
  claimed : List TaskKey := []

inductive TaskEvent
  | advance (now : Time)
  | setInstance (instanceId : ℕ) (status : Option InstanceStatus)
  | createInstanceTask (instanceId hostId userId : ℕ) (taskType : InstanceTaskType)
  | createHostTask (queue : HostQueue) (instanceId hostId userId : ℕ)
  | claimLight (hostId taskId : ℕ)
  | claimNext (hostId taskId : ℕ)
  | claimNextHost (queue : HostQueue) (hostId taskId : ℕ)
  | mark (claim : TaskClaim) (token : String)
  | abandon (claim : TaskClaim)
  | renew (taskId : ℕ) (token : String)
  | store (taskId : ℕ) (token : String) (data : ExecutionData)
  | finish (taskId : ℕ) (token : String) (outcome : TaskOutcome)
  | lostLease (taskId : ℕ) (token : String)
  | sweepStale
  | sweepTimeout
  | readCancel (taskId : ℕ)
  | writeCancel (taskId : ℕ)
  | readRecover (taskId : ℕ) (isAdmin force : Bool)
  | writeRecover (recovery : TaskRecovery)
  | cleanupOld
  | deleteFinished (instanceId : ℕ)
  | sweepTimeoutHost (queue : HostQueue)
  | sweepStaleHost (queue : HostQueue)
  | progressHost (queue : HostQueue) (taskId : ℕ) (progress : String)
  | finishHost (execution : TaskExecution) (queue : HostQueue) (taskId : ℕ) (result : HostTaskEnd)
  | stop (execution : TaskExecution)
deriving DecidableEq, Repr

namespace TaskWorld

variable (w : TaskWorld)

/-- The locks of a new claim are free. -/
def locksFree (claim : TaskClaim) : Bool :=
  w.claims.all fun c => c.hostId != claim.hostId && c.instanceId != claim.instanceId

/-- A claim whose checks have passed takes its locks, if they are free. -/
def takeLocks (claim : Option TaskClaim) : Option TaskWorld :=
  match claim with
  | none => none
  | some claim =>
      if w.locksFree claim then some { w with claims := claim :: w.claims } else none

end TaskWorld

/-- The execution that a claim starts. -/
def TaskClaim.execution (claim : TaskClaim) (token : String) : TaskExecution :=
  { key := claim.key, hostId := claim.hostId, token }

def taskStep (w : TaskWorld) : TaskEvent → Option TaskWorld
  | .advance now => if w.now ≤ now then some { w with now } else none
  | .setInstance instanceId status =>
      some { w with
        db := { w.db with
          instanceStatus := Function.update w.db.instanceStatus instanceId status } }
  | .createInstanceTask instanceId hostId userId taskType =>
      (createInstanceTask w.db w.now instanceId hostId userId taskType).map ({ w with db := · })
  | .createHostTask queue instanceId hostId userId =>
      (createHostTask w.db queue w.now instanceId hostId userId).map ({ w with db := · })
  | .claimLight hostId taskId => w.takeLocks (claimLightTask w.db hostId taskId)
  | .claimNext hostId taskId => w.takeLocks (claimNextTask w.db hostId taskId)
  | .claimNextHost queue hostId taskId => w.takeLocks (claimNextHostTask w.db queue hostId taskId)
  | .mark claim token =>
      if claim ∈ w.claims then
        (markProcessing w.db w.now token claim.key).map fun db =>
          { w with
              db
              claims := w.claims.erase claim
              executions := claim.execution token :: w.executions
              claimed := claim.key :: w.claimed }
      else none
  | .abandon claim => some { w with claims := w.claims.erase claim }
  | .renew taskId token => some { w with db := renewInstanceTaskLease w.db taskId token w.now }
  | .store taskId token data =>
      some { w with db := updateInstanceTaskExecutionData w.db taskId token data w.now }
  | .finish taskId token outcome =>
      -- `executeTask` returns after the write, whether it has found its row or not
      some { w with
        db := finishInstanceTaskExecution w.db taskId token outcome w.now
        executions := w.executions.filter fun ex =>
          !(ex.key == .instanceTask taskId && ex.token == token) }
  | .lostLease taskId token => some { w with db := quarantineLostLease w.db taskId token }
  | .sweepStale => some { w with db := cleanupStaleInstanceTasks w.db w.now }
  | .sweepTimeout => some { w with db := cleanupTimeoutInstanceTasks w.db w.now }
  | .readCancel taskId =>
      if canCancelInstanceTask w.db taskId then
        some { w with cancellations := taskId :: w.cancellations }
      else none
  | .writeCancel taskId =>
      if taskId ∈ w.cancellations then
        (cancelInstanceTask w.db taskId w.now).map
          ({ w with db := ·, cancellations := w.cancellations.erase taskId })
      else none
  | .readRecover taskId isAdmin force =>
      (w.db.instanceTask taskId).map fun task =>
        { w with recoveries := { task, isAdmin, force } :: w.recoveries }
  | .writeRecover recovery =>
      if recovery ∈ w.recoveries then
        (recoverInstanceTask w.db recovery.task w.now recovery.isAdmin recovery.force).map
          ({ w with db := ·, recoveries := w.recoveries.erase recovery })
      else none
  | .cleanupOld => some { w with db := cleanupOldTasks w.db w.now }
  | .deleteFinished instanceId => some { w with db := deleteFinishedTasks w.db instanceId }
  | .sweepTimeoutHost queue => some { w with db := cleanupTimeoutHostTasks w.db queue w.now }
  | .sweepStaleHost queue => some { w with db := cleanupStaleHostTasks w.db queue w.now }
  | .progressHost queue taskId progress =>
      some { w with db := updateHostTaskProgress w.db queue taskId progress }
  | .finishHost execution queue taskId result =>
      if execution ∈ w.executions ∧ execution.key = .hostTask queue taskId then
        (finishHostTask w.db queue taskId result w.now).map
          ({ w with db := ·, executions := w.executions.erase execution })
      else none
  | .stop execution => some { w with executions := w.executions.erase execution }

/-- Nothing under way and no tasks. -/
structure TaskWorld.TaskStart (w : TaskWorld) : Prop where
  instanceTasks : w.db.instanceTasks = []
  hostTasks : ∀ queue, w.db.hostTasks queue = []
  claims : w.claims = []
  cancellations : w.cancellations = []
  executions : w.executions = []
  claimed : w.claimed = []

/-- What was read before a mark or a cancellation is still so when it is
written: the row is pending. -/
def readsStillHold (w : TaskWorld) : TaskEvent → Bool
  | .mark claim _ =>
      match claim.key with
      | .instanceTask id => (w.db.instanceTask id).all (·.status == .pending)
      | .hostTask _ _ => true
  | .writeCancel taskId => (w.db.instanceTask taskId).all (·.status == .pending)
  | _ => true

/-! ## Rows, and what a claim has checked -/

/-- What a task of any queue shows to the other queues. -/
structure TaskRow where
  hostId : ℕ
  status : TaskStatus
  /-- may run together with others -/
  light : Bool
  token : Option String
deriving DecidableEq, Repr

def InstanceTask.row (t : InstanceTask) : TaskRow :=
  { hostId := t.hostId, status := t.status
    light := decide (t.taskType ∈ lightTaskNames), token := t.executionToken }

def HostTask.row (t : HostTask) : TaskRow :=
  { hostId := t.hostId, status := t.status, light := false, token := none }

def TaskDb.row (db : TaskDb) : TaskKey → Option TaskRow
  | .instanceTask id => (db.instanceTask id).map (·.row)
  | .hostTask queue id => (db.hostTask queue id).map (·.row)

/-- What holds of a claim whose checks have passed: its task is pending on the
host, and only a light task goes together with what is processing there, which
is light too. -/
structure TaskClaim.Checked (c : TaskClaim) (db : TaskDb) : Prop where
  row : ∃ r, db.row c.key = some r ∧ r.status = .pending ∧ r.hostId = c.hostId
  exclusive : ∀ k r, db.row k = some r → r.status = .processing → r.hostId = c.hostId →
    r.light = true ∧ ∀ rc, db.row c.key = some rc → rc.light = true

section Checks

variable {db : TaskDb} {h k : ℕ} {c : TaskClaim}

theorem light_of_not_heavy {t : InstanceTaskType} (h : t ∉ heavyTaskTypes) :
    t ∈ lightTaskNames := by
  cases t <;> simp_all [heavyTaskTypes, lightTaskNames]

theorem not_processing_of_runningHostTask {queue : HostQueue}
    (hq : ¬ db.runningHostTask queue h = true) {r : TaskRow} {id : ℕ}
    (hr : db.row (.hostTask queue id) = some r) (hhost : r.hostId = h) :
    r.status ≠ .processing := by
  intro hp
  obtain ⟨t, ht, rfl⟩ := Option.map_eq_some_iff.mp hr
  refine hq (List.any_eq_true.mpr ⟨t, (Keyed.mem_of_lookup ht).1, ?_⟩)
  simp only [HostTask.row] at hp hhost
  simp [hp, hhost]

/-- With no restore and no upload in `PROCESSING`, what is processing on the
host is an instance task. -/
theorem processing_instanceTask (hrestore : ¬ db.runningHostTask .restore h = true)
    (hupload : ¬ db.runningHostTask .upload h = true) {key : TaskKey} {r : TaskRow}
    (hr : db.row key = some r) (hp : r.status = .processing) (hhost : r.hostId = h) :
    ∃ t ∈ db.instanceTasks, t.row = r := by
  cases key with
  | instanceTask id =>
      obtain ⟨t, ht, rfl⟩ := Option.map_eq_some_iff.mp hr
      exact ⟨t, (Keyed.mem_of_lookup ht).1, rfl⟩
  | hostTask queue id =>
      cases queue with
      | restore => exact absurd hp (not_processing_of_runningHostTask hrestore hr hhost)
      | upload => exact absurd hp (not_processing_of_runningHostTask hupload hr hhost)

theorem claimLightTask_checked (hc : claimLightTask db h k = some c) : c.Checked db := by
  unfold claimLightTask at hc
  split at hc
  · cases hc
  rename_i hheavy
  split at hc
  · cases hc
  rename_i hrestore
  split at hc
  · cases hc
  rename_i hupload
  split at hc
  · cases hc
  rename_i task htask
  split at hc
  · rename_i hlight
    split at hc
    · cases hc
    rename_i hpending
    split at hc
    · cases hc
    cases hc
    have hrow : db.row (.instanceTask k) = some task.row := by simp [TaskDb.row, htask]
    refine ⟨⟨task.row, hrow, not_not.mp hpending, hlight.1⟩, ?_⟩
    intro key r hr hp hhost
    obtain ⟨t, ht, rfl⟩ := processing_instanceTask hrestore hupload hr hp hhost
    constructor
    · refine decide_eq_true (light_of_not_heavy fun hin => hheavy ?_)
      simp only [InstanceTask.row] at hp hhost
      exact List.any_eq_true.mpr ⟨t, ht, by simp [hp, hhost, hin]⟩
    · intro rc hrc
      obtain rfl := Option.some.inj (hrow.symm.trans hrc)
      exact decide_eq_true hlight.2
  · cases hc

/-- On a host with nothing in `PROCESSING` any pending task may be claimed. -/
theorem checked_of_idle (hinst : ¬ db.runningInstanceTask c.hostId = true)
    (hrestore : ¬ db.runningHostTask .restore c.hostId = true)
    (hupload : ¬ db.runningHostTask .upload c.hostId = true) {r : TaskRow}
    (hr : db.row c.key = some r) (hp : r.status = .pending) (hhost : r.hostId = c.hostId) :
    c.Checked db := by
  refine ⟨⟨r, hr, hp, hhost⟩, ?_⟩
  intro key r' hr' hp' hhost'
  obtain ⟨t, ht, rfl⟩ := processing_instanceTask hrestore hupload hr' hp' hhost'
  simp only [InstanceTask.row] at hp' hhost'
  exact absurd (List.any_eq_true.mpr ⟨t, ht, by simp [hp', hhost']⟩) hinst

theorem claimNextTask_checked (hc : claimNextTask db h k = some c) : c.Checked db := by
  unfold claimNextTask at hc
  split at hc
  · cases hc
  rename_i hinst
  split at hc
  · cases hc
  rename_i hrestore
  split at hc
  · cases hc
  rename_i hupload
  split at hc
  · cases hc
  rename_i task htask
  split at hc
  · rename_i hpicked
    split at hc
    · cases hc
    cases hc
    have hrow : db.row (.instanceTask k) = some task.row := by simp [TaskDb.row, htask]
    exact checked_of_idle hinst hrestore hupload hrow hpicked.2.1 hpicked.1
  · cases hc

theorem claimNextHostTask_checked {queue : HostQueue}
    (hc : claimNextHostTask db queue h k = some c) : c.Checked db := by
  unfold claimNextHostTask at hc
  split at hc
  · cases hc
  rename_i hrestore
  split at hc
  · cases hc
  rename_i hupload
  split at hc
  · cases hc
  rename_i hinst
  split at hc
  · cases hc
  rename_i task htask
  split at hc
  · rename_i hpicked
    split at hc
    · cases hc
    cases hc
    have hrow : db.row (.hostTask queue k) = some task.row := by simp [TaskDb.row, htask]
    exact checked_of_idle hinst hrestore hupload hrow hpicked.2.1 hpicked.1
  · cases hc

end Checks

/-! ## What one step does to the row of an instance task -/

section Changes

variable {w w' : TaskWorld} {db db' : TaskDb} {e : TaskEvent} {id : ℕ} {task task' : InstanceTask}

/-- A task on the same host and of the same type. -/
structure SameTask (task task' : InstanceTask) : Prop where
  hostId : task'.hostId = task.hostId
  taskType : task'.taskType = task.taskType

/-- The row of task `id` before and after a step. -/
inductive TaskChange (w : TaskWorld) (e : TaskEvent) (id : ℕ) :
    Option InstanceTask → Option InstanceTask → Prop
  | same (row : Option InstanceTask) : TaskChange w e id row row
  | created {task : InstanceTask} (new : id = w.db.nextId) (status : task.status = .pending) :
      TaskChange w e id none (some task)
  | deleted {task : InstanceTask} (finished : task.status.isActive = false) :
      TaskChange w e id (some task) none
  | edited {task task' : InstanceTask} (before : task.status = .processing)
      (after : task'.status = .processing) (same : SameTask task task')
      (token : task'.executionToken = task.executionToken) :
      TaskChange w e id (some task) (some task')
  | finished {task task' : InstanceTask} {token : String} {outcome : TaskOutcome}
      (event : e = .finish id token outcome)
      (active : task.activeExecution id token w.now = true) (same : SameTask task task')
      (after : task'.status.isActive = false) : TaskChange w e id (some task) (some task')
  | recovered {task task' : InstanceTask} {recovery : TaskRecovery}
      (event : e = .writeRecover recovery) (found : recovery.task.id = id)
      (addressed : recovery.task.recoveredBy w.now task = true)
      (before : task.status.isActive = true)
      (forced : task.status = .processing → recovery.isAdmin = true ∧ recovery.force = true ∧
        task.leaseExpiresAt.all (· ≤ w.now) = true)
      (same : SameTask task task') (after : task'.status = .failed) :
      TaskChange w e id (some task) (some task')
  | cancelled {task task' : InstanceTask} (event : e = .writeCancel id)
      (same : SameTask task task') (after : task'.status = .failed) :
      TaskChange w e id (some task) (some task')
  | marked {task task' : InstanceTask} {claim : TaskClaim} {token : String}
      (event : e = .mark claim token) (key : claim.key = .instanceTask id)
      (same : SameTask task task') (after : task'.status = .processing)
      (marked : task'.executionToken = some token) :
      TaskChange w e id (some task) (some task')

theorem instanceTask_updateInstanceTasks {p : InstanceTask → Bool} {f : InstanceTask → InstanceTask}
    (hf : ∀ t, (f t).id = t.id) :
    (db.updateInstanceTasks p f).instanceTask id
      = (db.instanceTask id).map fun t => if p t then f t else t := by
  refine Keyed.lookup_map fun t => ?_
  split
  · exact hf t
  · rfl

theorem id_of_instanceTask (h : db.instanceTask id = some task) : task.id = id :=
  (Keyed.mem_of_lookup h).2

/-- `updateMany` changes a row that it addresses, and no other. -/
theorem change_updateInstanceTasks {p : InstanceTask → Bool} {f : InstanceTask → InstanceTask}
    (hdb : w'.db = w.db.updateInstanceTasks p f) (hf : ∀ t, (f t).id = t.id)
    (h : ∀ task, task.id = id → p task = true → TaskChange w e id (some task) (some (f task))) :
    TaskChange w e id (w.db.instanceTask id) (w'.db.instanceTask id) := by
  rw [hdb, instanceTask_updateInstanceTasks hf]
  cases hrow : w.db.instanceTask id with
  | none => exact .same none
  | some task =>
      simp only [Option.map_some]
      split
      · rename_i hp
        exact h task (id_of_instanceTask hrow) hp
      · exact .same _

theorem change_of_eq (h : w'.db.instanceTasks = w.db.instanceTasks) :
    TaskChange w e id (w.db.instanceTask id) (w'.db.instanceTask id) := by
  have : w'.db.instanceTask id = w.db.instanceTask id := by simp only [TaskDb.instanceTask, h]
  rw [this]
  exact .same _

/-- Dropping finished rows. -/
theorem change_filter {p : InstanceTask → Bool}
    (hn : (w.db.instanceTasks.map InstanceTask.id).Nodup)
    (hdb : w'.db.instanceTasks = w.db.instanceTasks.filter p)
    (hp : ∀ t, p t = false → t.status.isActive = false) :
    TaskChange w e id (w.db.instanceTask id) (w'.db.instanceTask id) := by
  have hrow : w'.db.instanceTask id = (w.db.instanceTask id).filter p := by
    simp only [TaskDb.instanceTask, hdb]
    exact Keyed.lookup_filter hn p
  rw [hrow]
  cases w.db.instanceTask id with
  | none => exact .same none
  | some task =>
      cases ht : p task with
      | true =>
          simp only [Option.filter, ht, if_true]
          exact .same _
      | false =>
          simp only [Option.filter, ht, Bool.false_eq_true, if_false]
          exact .deleted (hp task ht)

theorem processing_of_activeExecution {token : String} {now : Time}
    (h : task.activeExecution id token now = true) : task.status = .processing := by
  simp only [InstanceTask.activeExecution, Bool.and_eq_true, beq_iff_eq] at h
  exact h.1.1.2

theorem id_store (data : ExecutionData) (t : InstanceTask) :
    (t.store data).id = t.id ∧ (t.store data).status = t.status ∧
      SameTask t (t.store data) ∧ (t.store data).executionToken = t.executionToken := by
  cases data <;> exact ⟨rfl, rfl, ⟨rfl, rfl⟩, rfl⟩

theorem id_finish (outcome : TaskOutcome) (now : Time) (t : InstanceTask) :
    (t.finish outcome now).id = t.id ∧ SameTask t (t.finish outcome now) ∧
      (t.finish outcome now).status.isActive = false := by
  cases outcome <;> exact ⟨rfl, ⟨rfl, rfl⟩, rfl⟩

theorem takeLocks_eq {claim : Option TaskClaim} (h : w.takeLocks claim = some w') :
    ∃ c, claim = some c ∧ w.locksFree c = true ∧ w' = { w with claims := c :: w.claims } := by
  unfold TaskWorld.takeLocks at h
  split at h
  · cases h
  split at h
  · rename_i c hfree
    exact ⟨c, rfl, hfree, (Option.some.inj h).symm⟩
  · cases h

theorem taskChange_of_step (hn : (w.db.instanceTasks.map InstanceTask.id).Nodup)
    (hold : ∀ t ∈ w.db.instanceTasks, t.id < w.db.nextId) (hs : taskStep w e = some w') :
    TaskChange w e id (w.db.instanceTask id) (w'.db.instanceTask id) := by
  cases e with
  | createInstanceTask i h u type =>
      obtain ⟨db, hdb, rfl⟩ := Option.map_eq_some_iff.mp hs
      unfold createInstanceTask at hdb
      split at hdb
      · cases hdb
      cases hdb
      have hfresh : ∀ t ∈ w.db.instanceTasks, t.id ≠ w.db.nextId := fun t ht => (hold t ht).ne
      simp only [TaskDb.instanceTask]
      rw [Keyed.lookup_append_singleton hfresh]
      split
      · rename_i hid
        have hnone : Keyed.lookup InstanceTask.id id w.db.instanceTasks = none :=
          Keyed.lookup_eq_none_iff.mpr fun t ht => hid ▸ hfresh t ht
        rw [hnone]
        exact .created hid.symm rfl
      · exact .same _
  | createHostTask queue i h u =>
      obtain ⟨db, hdb, rfl⟩ := Option.map_eq_some_iff.mp hs
      unfold createHostTask at hdb
      split at hdb
      · cases hdb
      cases hdb
      exact change_of_eq rfl
  | claimLight h k =>
      obtain ⟨c, -, -, rfl⟩ := takeLocks_eq hs
      exact change_of_eq rfl
  | claimNext h k =>
      obtain ⟨c, -, -, rfl⟩ := takeLocks_eq hs
      exact change_of_eq rfl
  | claimNextHost queue h k =>
      obtain ⟨c, -, -, rfl⟩ := takeLocks_eq hs
      exact change_of_eq rfl
  | mark claim token =>
      simp only [taskStep] at hs
      split at hs
      · obtain ⟨db, hdb, rfl⟩ := Option.map_eq_some_iff.mp hs
        unfold markProcessing at hdb
        split at hdb
        · rename_i k hkey
          split at hdb
          · cases hdb
          split at hdb
          · cases hdb
          split at hdb
          · cases hdb
          cases hdb
          refine change_updateInstanceTasks rfl (fun _ => rfl) fun task hid hp => ?_
          obtain rfl : id = k := hid.symm.trans (by simpa using hp)
          exact .marked rfl hkey ⟨rfl, rfl⟩ rfl rfl
        · split at hdb
          · cases hdb
          split at hdb
          · cases hdb
          cases hdb
          exact change_of_eq rfl
      · cases hs
  | renew k token =>
      cases hs
      refine change_updateInstanceTasks rfl (fun _ => rfl) fun task _ hp => ?_
      have hstatus := processing_of_activeExecution hp
      exact .edited hstatus hstatus ⟨rfl, rfl⟩ rfl
  | store k token data =>
      cases hs
      refine change_updateInstanceTasks rfl (fun t => (id_store data t).1) fun task _ hp => ?_
      have hstatus := processing_of_activeExecution hp
      exact .edited hstatus ((id_store data task).2.1.trans hstatus)
        (id_store data task).2.2.1 (id_store data task).2.2.2
  | finish k token outcome =>
      cases hs
      refine change_updateInstanceTasks rfl (fun t => (id_finish outcome w.now t).1)
        fun task hid hp => ?_
      have hk : task.id = k := by
        simp only [InstanceTask.activeExecution, Bool.and_eq_true, beq_iff_eq] at hp
        exact hp.1.1.1
      obtain rfl : id = k := hid.symm.trans hk
      exact .finished rfl hp (id_finish outcome w.now task).2.1 (id_finish outcome w.now task).2.2
  | lostLease k token =>
      cases hs
      refine change_updateInstanceTasks rfl (fun _ => rfl) fun task _ hp => ?_
      simp only [Bool.and_eq_true, beq_iff_eq] at hp
      exact .edited hp.1.2 hp.1.2 ⟨rfl, rfl⟩ rfl
  | sweepStale =>
      cases hs
      refine change_updateInstanceTasks rfl (fun _ => rfl) fun task _ hp => ?_
      simp only [Bool.and_eq_true, beq_iff_eq] at hp
      exact .edited hp.1.1 hp.1.1 ⟨rfl, rfl⟩ rfl
  | sweepTimeout =>
      cases hs
      refine change_updateInstanceTasks rfl (fun _ => rfl) fun task _ hp => ?_
      simp only [Bool.and_eq_true, beq_iff_eq] at hp
      exact .edited hp.1.1 hp.1.1 ⟨rfl, rfl⟩ rfl
  | readCancel k =>
      simp only [taskStep] at hs
      split at hs
      · cases hs
        exact change_of_eq rfl
      · cases hs
  | writeCancel k =>
      simp only [taskStep] at hs
      split at hs
      · obtain ⟨db, hdb, rfl⟩ := Option.map_eq_some_iff.mp hs
        unfold cancelInstanceTask at hdb
        split at hdb
        · cases hdb
        cases hdb
        refine change_updateInstanceTasks rfl (fun _ => rfl) fun task hid hp => ?_
        obtain rfl : id = k := hid.symm.trans (by simpa using hp)
        exact .cancelled rfl ⟨rfl, rfl⟩ rfl
      · cases hs
  | readRecover k isAdmin force =>
      obtain ⟨task, -, rfl⟩ := Option.map_eq_some_iff.mp hs
      exact change_of_eq rfl
  | writeRecover r =>
      simp only [taskStep] at hs
      split at hs
      · obtain ⟨db, hdb, rfl⟩ := Option.map_eq_some_iff.mp hs
        unfold recoverInstanceTask at hdb
        split at hdb
        · cases hdb
        split at hdb
        · cases hdb
        rename_i hcan
        cases hdb
        refine change_updateInstanceTasks rfl (fun _ => rfl) fun task hid hp => ?_
        simp only [Bool.not_eq_true', Bool.not_eq_false] at hcan
        have haddressed := hp
        unfold InstanceTask.recoveredBy at hp
        unfold canRecoverInstanceTask at hcan
        split at hp
        · rename_i hprocessing
          simp only [Bool.and_eq_true, beq_iff_eq] at hp
          rw [if_pos hprocessing] at hcan
          simp only [Bool.and_eq_true] at hcan
          refine .recovered rfl (hp.1.1.1.symm.trans hid) haddressed
            (by simp [TaskStatus.isActive, hp.1.1.2]) (fun _ => ⟨hcan.1.1, hcan.1.2, ?_⟩)
            ⟨rfl, rfl⟩ rfl
          have hlease := hp.2
          cases hl : task.leaseExpiresAt with
          | none => rfl
          | some lease =>
              rw [hl] at hlease
              split at hlease
              · simpa using hlease
              · simp at hlease
        · simp only [Bool.and_eq_true, beq_iff_eq] at hp
          refine .recovered rfl (hp.1.symm.trans hid) haddressed
            (by simp [TaskStatus.isActive, hp.2]) (fun h => ?_) ⟨rfl, rfl⟩ rfl
          rw [hp.2] at h
          cases h
      · cases hs
  | cleanupOld =>
      cases hs
      refine change_filter hn rfl fun t ht => ?_
      simp only [Bool.or_eq_false_iff] at ht
      exact ht.1
  | deleteFinished i =>
      cases hs
      refine change_filter hn rfl fun t ht => ?_
      simp only [Bool.or_eq_false_iff] at ht
      exact ht.2
  | finishHost ex queue k result =>
      simp only [taskStep] at hs
      split at hs
      · obtain ⟨db, hdb, rfl⟩ := Option.map_eq_some_iff.mp hs
        unfold finishHostTask at hdb
        split at hdb
        · cases hdb
        split at hdb
        · split at hdb
          · cases hdb
            exact change_of_eq rfl
          · cases hdb
        · cases hdb
          exact change_of_eq rfl
      · cases hs
  | advance now =>
      simp only [taskStep] at hs
      split at hs
      · cases hs
        exact change_of_eq rfl
      · cases hs
  | _ => cases hs; exact change_of_eq rfl

end Changes

end Incudal
