/-
# `TaskQueues` — the three task queues of a host

Operations on instances (`instance_tasks`), restores (`restore_tasks`) and
backup uploads (`backup_upload_tasks`) wait in three tables and are claimed by
polling workers.  A claim is a transaction at the default isolation level
under the host's advisory lock: it looks for rows in `PROCESSING`, picks a
pending row, and marks it by its id.  The rows it looked at can change before
the mark, so a claim is two steps here: the checks (`claimLightTask`,
`claimNextTask`, `claimNextHostTask`), which leave the transaction with the
lock in hand, and the mark (`markProcessing`).  A cancellation and a recovery
read the row and write it in two statements likewise.

An instance task is executed under a lease: the later writes of its worker
name the execution token and require that the lease has not expired.  Restores
and uploads have no lease: their workers write by id.
-/
import Incudal.Basic
import Incudal.Lib.Keyed
import Incudal.Lib.Machine

namespace Incudal

/-! ## Rows -/

/-- `InstanceTaskType`. -/
inductive InstanceTaskType
  | start | stop | restart | rebuild | clone | recreate | changeHost
deriving DecidableEq, Repr

/-- The status of a task of any queue. -/
inductive TaskStatus
  | pending | processing | completed | failed
deriving DecidableEq, Repr

/-- `LIGHT_TASK_NAMES`. -/
def lightTaskNames : List InstanceTaskType := [.start, .stop, .restart]

/-- `HEAVY_TASK_TYPES`. -/
def heavyTaskTypes : List InstanceTaskType := [.rebuild, .clone, .recreate, .changeHost]

/-- A row of `instance_tasks`. -/
structure InstanceTask where
  id : ℕ
  instanceId : ℕ
  hostId : ℕ
  userId : ℕ
  taskType : InstanceTaskType
  status : TaskStatus := .pending
  progress : Option String := none
  newInstanceId : Option ℕ := none
  error : Option String := none
  executionToken : Option String := none
  leaseExpiresAt : Option Time := none
  createdAt : Time
  startedAt : Option Time := none
  finishedAt : Option Time := none
deriving DecidableEq, Repr

/-- A row of `restore_tasks` or `backup_upload_tasks`. -/
structure HostTask where
  id : ℕ
  instanceId : ℕ
  hostId : ℕ
  userId : ℕ
  status : TaskStatus := .pending
  progress : Option String := none
  retryCount : ℕ := 0
  error : Option String := none
  createdAt : Time
  startedAt : Option Time := none
  finishedAt : Option Time := none
deriving DecidableEq, Repr

/-- The two queues without a lease. -/
inductive HostQueue
  | restore | upload
deriving DecidableEq, Repr

structure TaskDb where
  instanceTasks : List InstanceTask
  hostTasks : HostQueue → List HostTask
  instanceStatus : ℕ → Option InstanceStatus
  nextId : ℕ

/-- A task of one of the queues. -/
inductive TaskKey
  | instanceTask (id : ℕ)
  | hostTask (queue : HostQueue) (id : ℕ)
deriving DecidableEq, Repr

/-- Pending or processing. -/
def TaskStatus.isActive (s : TaskStatus) : Bool := s == .pending || s == .processing

namespace TaskDb

variable (db : TaskDb)

def instanceTask (id : ℕ) : Option InstanceTask := Keyed.lookup InstanceTask.id id db.instanceTasks

def hostTask (queue : HostQueue) (id : ℕ) : Option HostTask :=
  Keyed.lookup HostTask.id id (db.hostTasks queue)

/-- `instanceTask.updateMany`. -/
def updateInstanceTasks (p : InstanceTask → Bool) (f : InstanceTask → InstanceTask) : TaskDb :=
  { db with instanceTasks := db.instanceTasks.map fun t => if p t then f t else t }

/-- `restoreTask.updateMany` and `backupUploadTask.updateMany`. -/
def updateHostTasks (queue : HostQueue) (p : HostTask → Bool) (f : HostTask → HostTask) : TaskDb :=
  { db with
      hostTasks := Function.update db.hostTasks queue
        ((db.hostTasks queue).map fun t => if p t then f t else t) }

/-- Whether the host has an instance task in `PROCESSING`. -/
def runningInstanceTask (hostId : ℕ) : Bool :=
  db.instanceTasks.any fun t => t.hostId == hostId && t.status == .processing

/-- Whether one of them is heavy. -/
def runningHeavyTask (hostId : ℕ) : Bool :=
  db.instanceTasks.any fun t =>
    t.hostId == hostId && t.status == .processing && decide (t.taskType ∈ heavyTaskTypes)

/-- Whether the host has a task of the queue in `PROCESSING`. -/
def runningHostTask (queue : HostQueue) (hostId : ℕ) : Bool :=
  (db.hostTasks queue).any fun t => t.hostId == hostId && t.status == .processing

/-- The instance is there and not deleted. -/
def instanceUsable (instanceId : ℕ) : Bool :=
  (db.instanceStatus instanceId).any (· != .deleted)

/-- The partial unique index on the active tasks of an instance. -/
def activeInstanceTask (instanceId exceptId : ℕ) : Bool :=
  db.instanceTasks.any fun t => t.instanceId == instanceId && t.status.isActive && t.id != exceptId

/-- The partial unique index on the active uploads of a user. -/
def activeUpload (userId exceptId : ℕ) : Bool :=
  (db.hostTasks .upload).any fun t => t.userId == userId && t.status.isActive && t.id != exceptId

end TaskDb

/-! ## Creation -/

/-- `createInstanceTask`. -/
def createInstanceTask (db : TaskDb) (now : Time) (instanceId hostId userId : ℕ)
    (taskType : InstanceTaskType) : Option TaskDb :=
  if db.activeInstanceTask instanceId db.nextId then none
  else
    some { db with
      instanceTasks := db.instanceTasks ++
        [{ id := db.nextId, instanceId, hostId, userId, taskType, createdAt := now }]
      nextId := db.nextId + 1 }

/-- `createRestoreTask` and `createBackupUploadTask`. -/
def createHostTask (db : TaskDb) (queue : HostQueue) (now : Time)
    (instanceId hostId userId : ℕ) : Option TaskDb :=
  if queue = .upload ∧ db.activeUpload userId db.nextId then none
  else
    some { db with
      hostTasks := Function.update db.hostTasks queue (db.hostTasks queue ++
        [{ id := db.nextId, instanceId, hostId, userId, createdAt := now }])
      nextId := db.nextId + 1 }

/-! ## Claims -/

/-- A claim transaction between its checks and its mark: it holds the host's
lock and the lock of the instance. -/
structure TaskClaim where
  key : TaskKey
  hostId : ℕ
  instanceId : ℕ
deriving DecidableEq, Repr

/-- The checks of `claimLightTask` on a task that `processHostTasks` lists
among the light ones of the host. -/
def claimLightTask (db : TaskDb) (hostId taskId : ℕ) : Option TaskClaim :=
  if db.runningHeavyTask hostId then none
  else if db.runningHostTask .restore hostId then none
  else if db.runningHostTask .upload hostId then none
  else
    match db.instanceTask taskId with
    | none => none
    | some task =>
        if task.hostId = hostId ∧ task.taskType ∈ lightTaskNames then
          if task.status ≠ .pending then none
          else if !db.instanceUsable task.instanceId then none
          else some { key := .instanceTask taskId, hostId, instanceId := task.instanceId }
        else none

/-- The checks of `claimNextTask` for the task it picks: among the pending ones
of the host none is older. -/
def claimNextTask (db : TaskDb) (hostId taskId : ℕ) : Option TaskClaim :=
  if db.runningInstanceTask hostId then none
  else if db.runningHostTask .restore hostId then none
  else if db.runningHostTask .upload hostId then none
  else
    match db.instanceTask taskId with
    | none => none
    | some task =>
        if task.hostId = hostId ∧ task.status = .pending ∧
            ∀ t ∈ db.instanceTasks, t.hostId = hostId → t.status = .pending →
              task.createdAt ≤ t.createdAt then
          if !db.instanceUsable task.instanceId then none
          else some { key := .instanceTask taskId, hostId, instanceId := task.instanceId }
        else none

/-- The checks of the restore queue's `claimNextTask` and of
`claimNextUploadTask`, which differ in the table they claim from. -/
def claimNextHostTask (db : TaskDb) (queue : HostQueue) (hostId taskId : ℕ) : Option TaskClaim :=
  if db.runningHostTask .restore hostId then none
  else if db.runningHostTask .upload hostId then none
  else if db.runningInstanceTask hostId then none
  else
    match db.hostTask queue taskId with
    | none => none
    | some task =>
        if task.hostId = hostId ∧ task.status = .pending ∧
            ∀ t ∈ db.hostTasks queue, t.hostId = hostId → t.status = .pending →
              task.createdAt ≤ t.createdAt then
          if !db.instanceUsable task.instanceId then none
          else some { key := .hostTask queue taskId, hostId, instanceId := task.instanceId }
        else none

/-- `INSTANCE_TASK_LEASE_MS`. -/
def instanceTaskLeaseMs : Time := 120000

/-- The mark of a claimed row. -/
def InstanceTask.markProcessing (now : Time) (token : String) (t : InstanceTask) : InstanceTask :=
  { t with
      status := .processing
      startedAt := some now
      executionToken := some token
      leaseExpiresAt := some (now + instanceTaskLeaseMs) }

/-- The mark of a claim, by the id of the row alone.  It fails when the row is
gone or a unique index refuses it. -/
def markProcessing (db : TaskDb) (now : Time) (token : String) : TaskKey → Option TaskDb
  | .instanceTask id =>
      match db.instanceTask id with
      | none => none
      | some task =>
          if db.activeInstanceTask task.instanceId id then none
          else if db.instanceTasks.any fun t => t.executionToken == some token then none
          else some (db.updateInstanceTasks (·.id == id) (·.markProcessing now token))
  | .hostTask queue id =>
      match db.hostTask queue id with
      | none => none
      | some task =>
          if queue = .upload ∧ db.activeUpload task.userId id then none
          else
            some (db.updateHostTasks queue (·.id == id)
              ({ · with status := .processing, startedAt := some now }))

/-! ## Leases -/

/-- `activeExecutionWhere`. -/
def InstanceTask.activeExecution (taskId : ℕ) (executionToken : String) (now : Time)
    (t : InstanceTask) : Bool :=
  t.id == taskId && t.status == .processing && t.executionToken == some executionToken
    && t.leaseExpiresAt.any (now < ·)

/-- `renewInstanceTaskLease`. -/
def renewInstanceTaskLease (db : TaskDb) (taskId : ℕ) (executionToken : String) (now : Time) :
    TaskDb :=
  db.updateInstanceTasks (·.activeExecution taskId executionToken now)
    ({ · with leaseExpiresAt := some (now + instanceTaskLeaseMs) })

/-- What a worker stores on the way: its progress, or the instance that a clone made. -/
inductive ExecutionData
  | progress (progress : String)
  | newInstanceId (id : ℕ)
deriving DecidableEq, Repr

def InstanceTask.store (data : ExecutionData) (t : InstanceTask) : InstanceTask :=
  match data with
  | .progress progress => { t with progress := some progress }
  | .newInstanceId id => { t with newInstanceId := some id }

/-- `updateInstanceTaskExecutionData`. -/
def updateInstanceTaskExecutionData (db : TaskDb) (taskId : ℕ) (executionToken : String)
    (data : ExecutionData) (now : Time) : TaskDb :=
  db.updateInstanceTasks (·.activeExecution taskId executionToken now) (·.store data)

/-- How an execution ends. -/
inductive TaskOutcome
  | completed
  | failed (error : String)
deriving DecidableEq, Repr

/-- The write of an execution's end. -/
def InstanceTask.finish (outcome : TaskOutcome) (now : Time) (t : InstanceTask) : InstanceTask :=
  match outcome with
  | .completed =>
      { t with
          status := .completed, finishedAt := some now
          leaseExpiresAt := none, executionToken := none }
  | .failed error =>
      { t with
          status := .failed, error := some error, finishedAt := some now
          leaseExpiresAt := none, executionToken := none }

/-- `finishInstanceTaskExecution`. -/
def finishInstanceTaskExecution (db : TaskDb) (taskId : ℕ) (executionToken : String)
    (outcome : TaskOutcome) (now : Time) : TaskDb :=
  db.updateInstanceTasks (·.activeExecution taskId executionToken now) (·.finish outcome now)

/-- `INSTANCE_TASK_ORPHANED_PROGRESS`. -/
def instanceTaskOrphanedProgress : String := "orphaned"

/-- The write of a worker that has lost its lease. -/
def quarantineLostLease (db : TaskDb) (taskId : ℕ) (executionToken : String) : TaskDb :=
  db.updateInstanceTasks
    (fun t => t.id == taskId && t.status == .processing && t.executionToken == some executionToken)
    ({ · with
        progress := some instanceTaskOrphanedProgress
        error := some "任务执行租约已失效；已隔离，需确认旧执行终止后解除隔离" })

/-- The write of the two sweeps over expired leases. -/
def InstanceTask.quarantine (t : InstanceTask) : InstanceTask :=
  { t with
      progress := some instanceTaskOrphanedProgress
      error := some "任务执行租约已过期；已隔离，等待确认旧执行终止" }

/-- `cleanupStaleTasks` of the instance queue. -/
def cleanupStaleInstanceTasks (db : TaskDb) (now : Time) : TaskDb :=
  db.updateInstanceTasks
    (fun t => t.status == .processing && t.progress != some instanceTaskOrphanedProgress
      && t.leaseExpiresAt.all (· ≤ now))
    (·.quarantine)

/-- `cleanupTimeoutTasks` of the instance queue. -/
def cleanupTimeoutInstanceTasks (db : TaskDb) (now : Time) : TaskDb :=
  db.updateInstanceTasks
    (fun t => t.status == .processing && t.progress != some instanceTaskOrphanedProgress
      && t.leaseExpiresAt.any (· ≤ now))
    (·.quarantine)

/-! ## Cancellation and recovery -/

/-- The read of `cancelInstanceTask`. -/
def canCancelInstanceTask (db : TaskDb) (taskId : ℕ) : Bool :=
  (db.instanceTask taskId).any (·.status == .pending)

/-- Its write, which names the id only; it fails when the row is gone. -/
def cancelInstanceTask (db : TaskDb) (taskId : ℕ) (now : Time) : Option TaskDb :=
  match db.instanceTask taskId with
  | none => none
  | some _ =>
      some (db.updateInstanceTasks (·.id == taskId)
        ({ · with status := .failed, error := some "用户取消", finishedAt := some now }))

/-- `canRecoverInstanceTask`. -/
def canRecoverInstanceTask (task : InstanceTask) (now : Time) (force : Bool) : Bool :=
  if task.status = .processing then force && task.leaseExpiresAt.all (· ≤ now)
  else force || decide (now - task.createdAt ≥ 900000)

/-- The rows that the write of a recovery addresses, from the row it has read. -/
def InstanceTask.recoveredBy (task : InstanceTask) (now : Time) (t : InstanceTask) : Bool :=
  if task.status = .processing then
    t.id == task.id && t.status == .processing && t.executionToken == task.executionToken
      && (if task.leaseExpiresAt.isSome then t.leaseExpiresAt.any (· ≤ now)
          else t.leaseExpiresAt == none)
  else t.id == task.id && t.status == .pending

/-- The write of the recovery route, from the row it has read before. -/
def recoverInstanceTask (db : TaskDb) (task : InstanceTask) (now : Time) (isAdmin force : Bool) :
    Option TaskDb :=
  if !task.status.isActive then none
  else if !canRecoverInstanceTask task now (isAdmin && force) then none
  else
    some (db.updateInstanceTasks (task.recoveredBy now)
      ({ · with
          status := .failed
          progress := some "recovered"
          error := some ("任务异常，由 " ++ (if isAdmin then "管理员" else "用户") ++ " 手动解除")
          finishedAt := some now
          executionToken := none
          leaseExpiresAt := none }))

/-! ## Clean-up of finished tasks -/

/-- `cleanupOldTasks`. -/
def cleanupOldTasks (db : TaskDb) (now : Time) : TaskDb :=
  { db with
      instanceTasks := db.instanceTasks.filter fun t =>
        t.status.isActive || !t.finishedAt.any (· < now - 604800000) }

/-- What the deletion of an instance does to its finished tasks, in each queue. -/
def deleteFinishedTasks (db : TaskDb) (instanceId : ℕ) : TaskDb :=
  { db with
      instanceTasks := db.instanceTasks.filter fun t =>
        t.instanceId != instanceId || t.status.isActive
      hostTasks := fun queue => (db.hostTasks queue).filter fun t =>
        t.instanceId != instanceId || t.status.isActive }

/-! ## Restores and uploads -/

/-- `RESTORE_TIMEOUT` and `UPLOAD_TIMEOUT`. -/
def HostQueue.timeout : HostQueue → Time
  | .restore => 600000
  | .upload => 1800000

/-- The rows that the timeout sweep of a queue takes. -/
def HostTask.timedOut (queue : HostQueue) (now : Time) (t : HostTask) : Bool :=
  t.status == .processing && t.startedAt.any (· < now - queue.timeout)

/-- A row that is given up. -/
def HostTask.giveUp (error : String) (now : Time) (t : HostTask) : HostTask :=
  { t with status := .failed, error := some error, finishedAt := some now }

/-- `cleanupTimeoutTasks` of the restore queue and `cleanupTimeoutUploadTasks`. -/
def cleanupTimeoutHostTasks (db : TaskDb) (queue : HostQueue) (now : Time) : TaskDb :=
  let error := match queue with
    | .restore => "任务执行超时 (10 分钟)"
    | .upload => "任务执行超时 (30 分钟)"
  db.updateHostTasks queue (·.timedOut queue now) (·.giveUp error now)

/-- `cleanupStaleTasks` of the restore queue and `cleanupStaleUploadTasks`. -/
def cleanupStaleHostTasks (db : TaskDb) (queue : HostQueue) (now : Time) : TaskDb :=
  db.updateHostTasks queue (·.status == .processing) (·.giveUp "系统重启，任务中断" now)

/-- `updateProgress` of the restore queue and `updateUploadProgress`. -/
def updateHostTaskProgress (db : TaskDb) (queue : HostQueue) (taskId : ℕ) (progress : String) :
    TaskDb :=
  db.updateHostTasks queue (·.id == taskId) ({ · with progress := some progress })

/-- How the worker of a restore or an upload ends; only uploads are retried. -/
inductive HostTaskEnd
  | completed
  | failed (error : String)
  | retried (retryCount : ℕ)
deriving DecidableEq, Repr

/-- `MAX_RETRY_COUNT`. -/
def maxRetryCount : ℕ := 2

/-- The write of that end. -/
def HostTask.finish (result : HostTaskEnd) (now : Time) (t : HostTask) : HostTask :=
  match result with
  | .completed => { t with status := .completed, finishedAt := some now }
  | .failed error => t.giveUp error now
  | .retried retryCount =>
      { t with
          status := .pending, retryCount := retryCount + 1, progress := none, startedAt := none }

/-- The write, by id; a retry starts from the row that the worker read, and the
index on active uploads may refuse it. -/
def finishHostTask (db : TaskDb) (queue : HostQueue) (taskId : ℕ) (result : HostTaskEnd)
    (now : Time) : Option TaskDb :=
  match db.hostTask queue taskId with
  | none => none
  | some task =>
      match result with
      | .retried retryCount =>
          if queue = .upload ∧ retryCount < maxRetryCount ∧ !db.activeUpload task.userId taskId then
            some (db.updateHostTasks queue (·.id == taskId) (·.finish result now))
          else none
      | _ => some (db.updateHostTasks queue (·.id == taskId) (·.finish result now))

end Incudal
