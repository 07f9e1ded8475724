/-
# `HostEmails` — the queue of the mails to the users of a host

`server/src/db/host-notification-email-tasks.ts` and
`server/src/workers/hostNotificationEmailWorker.ts`.  The queue is a table that all servers share;
its transactions are serialized by an advisory lock.  A worker claims one task, hands the mail to
the mailer and then writes the outcome, by the number of the task and whatever has become of it in
the meantime: a task that took too long is requeued while its worker may still be at it.

Between two restarts any two claims are more than a minute apart (`email_claims_spaced`).  How often
a task is claimed and how often its mail goes out is bounded by how often it was requeued and
how often the mark of a sent mail was lost (`email_attempts`).
-/
import Mathlib.Data.List.MinMax
import Mathlib.Data.Prod.Lex
import Incudal.Lib.Machine
import Incudal.Lib.Keyed
import Incudal.Lib.Tally

namespace Incudal

/-! ## The table -/

def HOST_NOTIFICATION_EMAIL_INTERVAL_MS : ℕ := 60 * 1000

def HOST_NOTIFICATION_EMAIL_RETRY_DELAY_MS : ℕ := 5 * 60 * 1000

def HOST_NOTIFICATION_EMAIL_MAX_RETRIES : ℕ := 3

def HOST_NOTIFICATION_EMAIL_PROCESSING_TIMEOUT_MS : ℕ := 10 * 60 * 1000

structure EnqueueHostNotificationEmailTaskInput where
  userId : ℕ
  hostId : ℕ
  email : String
  username : String
  hostName : String
  title : String
  content : String
deriving DecidableEq, Repr

inductive HostNotificationEmailTaskStatus
  | pending | processing | sent | failed
deriving DecidableEq, Repr

/-- A row; times are in milliseconds. -/
structure HostNotificationEmailTask extends EnqueueHostNotificationEmailTaskInput where
  id : ℕ
  status : HostNotificationEmailTaskStatus := .pending
  retryCount : ℕ := 0
  lastError : Option String := none
  scheduledFor : ℕ
  createdAt : ℕ
  startedAt : Option ℕ := none
  finishedAt : Option ℕ := none
deriving DecidableEq, Repr

namespace HostNotificationEmailTask

/-- What both clean-ups write. -/
def requeue (task : HostNotificationEmailTask) (now : ℕ) (lastError : String) :
    HostNotificationEmailTask :=
  { task with
    status := .pending, scheduledFor := now, lastError := some lastError
    startedAt := none, finishedAt := none }

def isProcessing (task : HostNotificationEmailTask) : Bool := task.status == .processing

/-- `startedAt: { lt: now - ms }`, where a null is not less. -/
def startedBefore (task : HostNotificationEmailTask) (now ms : ℕ) : Bool :=
  match task.startedAt with
  | some startedAt => decide (startedAt + ms < now)
  | none => false

/-- `startedAt: { gte: now - ms }`. -/
def startedSince (task : HostNotificationEmailTask) (now ms : ℕ) : Bool :=
  match task.startedAt with
  | some startedAt => decide (now ≤ startedAt + ms)
  | none => false

/-- `status: 'PENDING', scheduledFor: { lte: now }`. -/
def isDue (task : HostNotificationEmailTask) (now : ℕ) : Bool :=
  task.status == .pending && decide (task.scheduledFor ≤ now)

/-- A task that keeps the next one from being claimed. -/
def throttles (task : HostNotificationEmailTask) (now : ℕ) : Bool :=
  task.isProcessing || task.startedSince now HOST_NOTIFICATION_EMAIL_INTERVAL_MS

end HostNotificationEmailTask

abbrev EmailTasks := List HostNotificationEmailTask

namespace EmailTasks

/-- The rows that a clean-up addresses are requeued. -/
def requeueWhere (tasks : EmailTasks) (q : HostNotificationEmailTask → Bool) (now : ℕ)
    (lastError : String) : EmailTasks :=
  tasks.map fun task => if q task then task.requeue now lastError else task

def cleanupStaleHostNotificationEmailTasks (tasks : EmailTasks) (now : ℕ) : EmailTasks :=
  tasks.requeueWhere (·.isProcessing) now "系统重启，邮件任务已重新入队"

def isTimedOut (now : ℕ) (task : HostNotificationEmailTask) : Bool :=
  task.isProcessing && task.startedBefore now HOST_NOTIFICATION_EMAIL_PROCESSING_TIMEOUT_MS

def cleanupTimeoutHostNotificationEmailTasks (tasks : EmailTasks) (now : ℕ) : EmailTasks :=
  tasks.requeueWhere (isTimedOut now) now "邮件任务处理超时，已重新入队"

/-- The task that is scheduled last of those still to be sent. -/
def latestQueuedTask (tasks : EmailTasks) : Option HostNotificationEmailTask :=
  (tasks.filter fun t => t.status == .pending || t.status == .processing).argmax
    fun t => toLex (t.scheduledFor, t.id)

def latestAttemptedTask (tasks : EmailTasks) : Option HostNotificationEmailTask :=
  (tasks.filter fun t => t.startedAt.isSome).argmax fun t => toLex (t.startedAt.getD 0, t.id)

/-- When the first of the new tasks is due. -/
def baseTime (tasks : EmailTasks) (now : ℕ) : ℕ :=
  let baseTime :=
    match tasks.latestQueuedTask with
    | some task => max now (task.scheduledFor + HOST_NOTIFICATION_EMAIL_INTERVAL_MS)
    | none => now
  match tasks.latestAttemptedTask.bind (·.startedAt) with
  | some startedAt => max baseTime (startedAt + HOST_NOTIFICATION_EMAIL_INTERVAL_MS)
  | none => baseTime

/-- One attempt under the lock; `nextId` is the sequence of the table. -/
def enqueueHostNotificationEmailTasks (tasks : EmailTasks) (nextId now : ℕ)
    (inputs : List EnqueueHostNotificationEmailTaskInput) : EmailTasks :=
  tasks ++ inputs.mapIdx fun index input =>
    { input with
      id := nextId + index
      scheduledFor := tasks.baseTime now + index * HOST_NOTIFICATION_EMAIL_INTERVAL_MS
      createdAt := now }

def nextTask (tasks : EmailTasks) (now : ℕ) : Option HostNotificationEmailTask :=
  (tasks.filter (·.isDue now)).argmin fun t => toLex (t.scheduledFor, t.createdAt)

def startTask (now : ℕ) (task : HostNotificationEmailTask) : HostNotificationEmailTask :=
  { task with status := .processing, startedAt := some now, finishedAt := none, lastError := none }

/-- The task as the update returns it, and the table; `none` where nothing is claimed. -/
def claimNextHostNotificationEmailTask (tasks : EmailTasks) (now : ℕ) :
    Option (HostNotificationEmailTask × EmailTasks) :=
  if tasks.any (·.throttles now) then none
  else (tasks.nextTask now).map fun nextTask =>
    (startTask now nextTask, Keyed.modify (·.id) nextTask.id (startTask now) tasks)

/-- `update` by id, which throws where there is no such row. -/
def updateTask (tasks : EmailTasks) (taskId : ℕ)
    (f : HostNotificationEmailTask → HostNotificationEmailTask) : Option EmailTasks :=
  if tasks.any (fun t => decide (t.id = taskId)) then some (Keyed.modify (·.id) taskId f tasks)
  else none

def markSent (now : ℕ) (task : HostNotificationEmailTask) : HostNotificationEmailTask :=
  { task with status := .sent, lastError := none, finishedAt := some now }

def markHostNotificationEmailTaskSent (tasks : EmailTasks) (now taskId : ℕ) : Option EmailTasks :=
  tasks.updateTask taskId (markSent now)

def failTask (now : ℕ) (errorMessage : String) (task : HostNotificationEmailTask) :
    HostNotificationEmailTask :=
  { task with status := .failed, lastError := some errorMessage, finishedAt := some now }

def retryTask (now : ℕ) (errorMessage : String) (task : HostNotificationEmailTask) :
    HostNotificationEmailTask :=
  { task with
    status := .pending, retryCount := task.retryCount + 1, lastError := some errorMessage
    scheduledFor := now + HOST_NOTIFICATION_EMAIL_RETRY_DELAY_MS, finishedAt := none }

def retryOrFailHostNotificationEmailTask (tasks : EmailTasks) (now taskId currentRetryCount : ℕ)
    (errorMessage : String) : Option EmailTasks :=
  if HOST_NOTIFICATION_EMAIL_MAX_RETRIES ≤ currentRetryCount then
    tasks.updateTask taskId (failTask now errorMessage)
  else tasks.updateTask taskId (retryTask now errorMessage)

end EmailTasks

/-! ## The workers -/

/-- Where `processQueue` waits: for the mailer, for the mark of a sent mail, for the record of a
failure, and for that record once more after an exception. -/
inductive EmailStage
  | sending
  | marking
  | retrying (errorMessage : String)
  | recovering (errorMessage : String)
  | finished
deriving DecidableEq, Repr

/-- A call of `processQueue` that has claimed a task. -/
structure EmailWorker where
  currentTask : HostNotificationEmailTask
  stage : EmailStage
deriving DecidableEq, Repr

structure EmailClaim where
  id : ℕ
  retryCount : ℕ
  claimedAt : ℕ
deriving DecidableEq, Repr

/-- What has happened so far: the claims, and the numbers of the tasks that were set back for a
retry, requeued by a clean-up, sent as the mailer reports, and not marked when they were sent. -/
structure EmailHistory where
  claims : List EmailClaim := []
  retried : List ℕ := []
  requeued : List ℕ := []
  delivered : List ℕ := []
  unmarked : List ℕ := []
deriving DecidableEq, Repr

structure EmailWorld where
  tasks : EmailTasks := []
  nextId : ℕ := 0
  clock : ℕ := 0
  workers : List EmailWorker := []
  history : EmailHistory := {}

inductive MailResult
  | success
  | failure (error : Option String)
  | thrown (message : String)
deriving DecidableEq, Repr

inductive EmailEvent
  | tick (now : ℕ)
  | enqueue (inputs : List EnqueueHostNotificationEmailTaskInput)
  | claim
  | mailed (j : ℕ) (result : MailResult)
  /-- the statement that the worker has sent to the database, with its error if it throws -/
  | statement (j : ℕ) (fault : Option String)
  | crash (j : ℕ)
  | restart
  | timeout
  | deleteUser (userId : ℕ)
  | deleteHost (hostId : ℕ)
deriving DecidableEq, Repr

namespace EmailWorld

def setStage (w : EmailWorld) (j : ℕ) (worker : EmailWorker) (stage : EmailStage) : EmailWorld :=
  { w with workers := w.workers.set j { worker with stage } }

/-- What the mailer's answer leads to. -/
def mailed (w : EmailWorld) (j : ℕ) (worker : EmailWorker) : MailResult → EmailWorld
  | .success =>
      { w.setStage j worker .marking with
        history := { w.history with
          delivered := w.history.delivered ++ [worker.currentTask.id] } }
  | .failure error =>
      let message := error.getD ""
      w.setStage j worker (.retrying (if message = "" then "Unknown email error" else message))
  | .thrown message => w.setStage j worker (.recovering message)

/-- `retryOrFailHostNotificationEmailTask`, with the stage that an exception leads to. -/
def recordFailure (w : EmailWorld) (j : ℕ) (worker : EmailWorker) (errorMessage : String)
    (fault : Option String) (onThrow : String → EmailStage) : EmailWorld :=
  let task := worker.currentTask
  match fault, w.tasks.retryOrFailHostNotificationEmailTask w.clock task.id task.retryCount
      errorMessage with
  | none, some tasks =>
      { w.setStage j worker .finished with
        tasks
        history := { w.history with
          retried :=
            if HOST_NOTIFICATION_EMAIL_MAX_RETRIES ≤ task.retryCount then w.history.retried
            else w.history.retried ++ [task.id] } }
  | fault, _ =>
      w.setStage j worker (onThrow (fault.getD "No record was found for an update."))

def recordSent (w : EmailWorld) (j : ℕ) (worker : EmailWorker) (fault : Option String) :
    EmailWorld :=
  match fault, w.tasks.markHostNotificationEmailTaskSent w.clock worker.currentTask.id with
  | none, some tasks => { w.setStage j worker .finished with tasks }
  | fault, _ =>
      { w.setStage j worker
          (.recovering (fault.getD "No record was found for an update.")) with
        history := { w.history with
          unmarked := w.history.unmarked ++ [worker.currentTask.id] } }

/-- A clean-up, and which tasks it requeued. -/
def requeued (w : EmailWorld) (q : HostNotificationEmailTask → Bool) (tasks : EmailTasks) :
    EmailWorld :=
  { w with
    tasks
    history := { w.history with
      requeued := w.history.requeued ++ (w.tasks.filter q).map (·.id) } }

end EmailWorld

/-- A transaction, or a step of a worker up to its next wait. -/
def emailStep (w : EmailWorld) : EmailEvent → Option EmailWorld
  | .tick now => if w.clock ≤ now then some { w with clock := now } else none
  | .enqueue inputs =>
      some { w with
        tasks := w.tasks.enqueueHostNotificationEmailTasks w.nextId w.clock inputs
        nextId := w.nextId + inputs.length }
  | .claim =>
      (w.tasks.claimNextHostNotificationEmailTask w.clock).map fun (task, tasks) =>
        { w with
          tasks
          workers := w.workers ++ [{ currentTask := task, stage := .sending }]
          history := { w.history with
            claims := w.history.claims ++
              [{ id := task.id, retryCount := task.retryCount, claimedAt := w.clock }] } }
  | .mailed j result =>
      match w.workers[j]? with
      | some worker => if worker.stage = .sending then some (w.mailed j worker result) else none
      | none => none
  | .statement j fault =>
      match w.workers[j]? with
      | some worker =>
          match worker.stage with
          | .marking => some (w.recordSent j worker fault)
          | .retrying errorMessage =>
              some (w.recordFailure j worker errorMessage fault .recovering)
          | .recovering errorMessage =>
              some (w.recordFailure j worker errorMessage fault fun _ => .finished)
          | .sending | .finished => none
      | none => none
  | .crash j => w.workers[j]?.map fun worker => w.setStage j worker .finished
  | .restart =>
      some (w.requeued (·.isProcessing) (w.tasks.cleanupStaleHostNotificationEmailTasks w.clock))
  | .timeout =>
      some (w.requeued (EmailTasks.isTimedOut w.clock)
        (w.tasks.cleanupTimeoutHostNotificationEmailTasks w.clock))
  | .deleteUser userId =>
      some { w with tasks := w.tasks.filter fun t => decide (t.userId ≠ userId) }
  | .deleteHost hostId =>
      some { w with tasks := w.tasks.filter fun t => decide (t.hostId ≠ hostId) }

/-! ## What is counted -/

/-- How often a task was claimed. -/
def EmailHistory.claimsOf (history : EmailHistory) (id : ℕ) : ℕ :=
  history.claims.countP fun c => decide (c.id = id)

/-- The claims after which a failure leads to a retry. -/
def EmailHistory.earlyClaims (history : EmailHistory) (id : ℕ) : ℕ :=
  history.claims.countP fun c =>
    decide (c.id = id ∧ c.retryCount < HOST_NOTIFICATION_EMAIL_MAX_RETRIES)

/-- A worker that may yet set the task back for a retry. -/
def EmailWorker.mayRetry (id : ℕ) (worker : EmailWorker) : Bool :=
  decide (worker.currentTask.id = id ∧
    worker.currentTask.retryCount < HOST_NOTIFICATION_EMAIL_MAX_RETRIES ∧ worker.stage ≠ .finished)

/-- A worker under way whose mail has not gone out, as far as it knows. -/
def EmailWorker.undelivered (id : ℕ) (worker : EmailWorker) : Bool :=
  decide (worker.currentTask.id = id ∧ worker.stage ≠ .finished ∧ worker.stage ≠ .marking)

section Counts

variable {history : EmailHistory} {id : ℕ} {tasks tasks' : EmailTasks} {now : ℕ}
variable {task : HostNotificationEmailTask}
variable {f : HostNotificationEmailTask → HostNotificationEmailTask}

theorem earlyClaims_le (history : EmailHistory) (id : ℕ) :
    history.earlyClaims id ≤ history.claimsOf id := by
  refine List.countP_mono_left fun c _ hc => ?_
  rw [decide_eq_true_eq] at hc ⊢
  exact hc.1

theorem claimNext_eq
    (h : tasks.claimNextHostNotificationEmailTask now = some (task, tasks')) :
    (∀ t ∈ tasks, t.throttles now = false) ∧
      ∃ next ∈ tasks, next.isDue now = true ∧ task = EmailTasks.startTask now next ∧
        tasks' = Keyed.modify (·.id) next.id (EmailTasks.startTask now) tasks := by
  unfold EmailTasks.claimNextHostNotificationEmailTask at h
  split at h
  · cases h
  · rename_i hany
    obtain ⟨next, hnext, heq⟩ := Option.map_eq_some_iff.mp h
    have hmem := List.mem_filter.mp (List.argmin_mem (Option.mem_def.mpr hnext))
    cases heq
    exact ⟨by simpa using hany, next, hmem.1, hmem.2, rfl, rfl⟩

theorem updateTask_eq (h : tasks.updateTask id f = some tasks') :
    tasks' = Keyed.modify (·.id) id f tasks := by
  unfold EmailTasks.updateTask at h
  split at h
  · cases h
    rfl
  · cases h

/-- What holds of the rows after an update by id. -/
theorem forall_modify {P : HostNotificationEmailTask → Prop}
    (hother : ∀ t ∈ tasks, t.id ≠ id → P t) (hself : ∀ t ∈ tasks, t.id = id → P (f t)) :
    ∀ t ∈ (Keyed.modify (·.id) id f tasks : EmailTasks), P t := by
  intro t' ht'
  obtain ⟨t, ht, rfl⟩ := Keyed.mem_modify.mp ht'
  split
  · exact hself t ht ‹_›
  · exact hother t ht ‹_›

theorem claimsOf_concat {c : EmailClaim} :
    EmailHistory.claimsOf { history with claims := history.claims ++ [c] } id =
      history.claimsOf id + if c.id = id then 1 else 0 := by
  simp only [EmailHistory.claimsOf, List.countP_append, List.countP_singleton, decide_eq_true_eq]

theorem earlyClaims_concat {c : EmailClaim} :
    EmailHistory.earlyClaims { history with claims := history.claims ++ [c] } id =
      history.earlyClaims id +
        if c.id = id ∧ c.retryCount < HOST_NOTIFICATION_EMAIL_MAX_RETRIES then 1 else 0 := by
  simp only [EmailHistory.earlyClaims, List.countP_append, List.countP_singleton,
    decide_eq_true_eq]

theorem count_concat {ids : List ℕ} {k : ℕ} :
    (ids ++ [k]).count id = ids.count id + if k = id then 1 else 0 := by
  simp only [List.count_append, List.count_singleton, beq_iff_eq]

end Counts

/-! ## The invariant -/

/-- A row, by what has happened to the task of its number. -/
structure EmailTaskInv (nextId : ℕ) (history : EmailHistory) (t : HostNotificationEmailTask) :
    Prop where
  fresh : t.id < nextId
  counted : t.retryCount = history.retried.count t.id
  pending : t.status = .pending →
    history.claimsOf t.id ≤ history.retried.count t.id + history.requeued.count t.id
  sent : t.status = .sent → t.id ∈ history.delivered
  failed : t.status = .failed → HOST_NOTIFICATION_EMAIL_MAX_RETRIES < history.claimsOf t.id

structure EmailInv (w : EmailWorld) : Prop where
  rows : ∀ t ∈ w.tasks, EmailTaskInv w.nextId w.history t
  unborn : ∀ id, w.nextId ≤ id → w.history.claimsOf id = 0
  workers : ∀ worker ∈ w.workers,
    (HOST_NOTIFICATION_EMAIL_MAX_RETRIES ≤ worker.currentTask.retryCount →
      HOST_NOTIFICATION_EMAIL_MAX_RETRIES < w.history.claimsOf worker.currentTask.id) ∧
    (worker.stage = .marking → worker.currentTask.id ∈ w.history.delivered)
  opened : ∀ id, w.history.claimsOf id ≤
    w.history.retried.count id + w.history.requeued.count id + 1
  retries : ∀ id, w.history.retried.count id + w.workers.countP (EmailWorker.mayRetry id) ≤
    w.history.earlyClaims id
  early : ∀ id, w.history.earlyClaims id ≤
    HOST_NOTIFICATION_EMAIL_MAX_RETRIES + w.history.requeued.count id
  deliveries : ∀ id,
    w.history.delivered.count id + w.history.retried.count id +
        w.workers.countP (EmailWorker.undelivered id) ≤
      w.history.claimsOf id + w.history.unmarked.count id

section Invariant

variable {w w' : EmailWorld} {t : HostNotificationEmailTask} {worker : EmailWorker}
variable {history history' : EmailHistory} {nextId nextId' j id : ℕ} {stage : EmailStage}
variable {tasks : EmailTasks} {event : EmailEvent}

/-- What others of its kind do leaves a row as it should be. -/
theorem EmailTaskInv.mono (h : EmailTaskInv nextId history t) (hnext : nextId ≤ nextId')
    (hretried : history'.retried.count t.id = history.retried.count t.id)
    (hclaims : history'.claimsOf t.id = history.claimsOf t.id)
    (hrequeued : history.requeued.count t.id ≤ history'.requeued.count t.id)
    (hdelivered : ∀ id ∈ history.delivered, id ∈ history'.delivered) :
    EmailTaskInv nextId' history' t where
  fresh := h.fresh.trans_le hnext
  counted := h.counted.trans hretried.symm
  pending hp := by
    rw [hretried, hclaims]
    exact (h.pending hp).trans (Nat.add_le_add_left hrequeued _)
  sent hs := hdelivered _ (h.sent hs)
  failed hf := by
    rw [hclaims]
    exact h.failed hf

theorem EmailTaskInv.retry (h : EmailTaskInv nextId history t) {now : ℕ} {errorMessage : String}
    (hopened : history.claimsOf t.id ≤
      history.retried.count t.id + history.requeued.count t.id + 1) :
    EmailTaskInv nextId { history with retried := history.retried ++ [t.id] }
      (EmailTasks.retryTask now errorMessage t) where
  fresh := h.fresh
  counted := by
    show t.retryCount + 1 = (history.retried ++ [t.id]).count t.id
    rw [count_concat, if_pos rfl, h.counted]
  pending _ := by
    show history.claimsOf t.id ≤
      (history.retried ++ [t.id]).count t.id + history.requeued.count t.id
    rw [count_concat, if_pos rfl]
    omega
  sent := by rintro ⟨⟩
  failed := by rintro ⟨⟩

theorem EmailTaskInv.requeue (h : EmailTaskInv nextId history t) {now : ℕ} {lastError : String}
    {ids : List ℕ}
    (hopened : history.claimsOf t.id ≤
      history.retried.count t.id + history.requeued.count t.id + 1)
    (hmore : 0 < ids.count t.id) :
    EmailTaskInv nextId { history with requeued := history.requeued ++ ids }
      (t.requeue now lastError) where
  fresh := h.fresh
  counted := h.counted
  pending _ := by
    show history.claimsOf t.id ≤
      history.retried.count t.id + (history.requeued ++ ids).count t.id
    rw [List.count_append]
    omega
  sent := by rintro ⟨⟩
  failed := by rintro ⟨⟩

theorem countP_setStage_le {p : EmailWorker → Bool} (hj : w.workers[j]? = some worker)
    (hp : p { worker with stage } = true → p worker = true) :
    (w.setStage j worker stage).workers.countP p ≤ w.workers.countP p := by
  have hset := Tally.countP_set_add (b := { worker with stage }) (p := p) hj
  have hle : (if p { worker with stage } = true then 1 else 0) ≤
      if p worker = true then 1 else 0 := by
    split
    · rw [if_pos (hp ‹_›)]
    · exact Nat.zero_le _
  simp only [EmailWorld.setStage]
  omega

theorem forall_workers_setStage {P : EmailWorker → Prop} (h : ∀ worker ∈ w.workers, P worker)
    (hnew : P { worker with stage }) :
    ∀ worker' ∈ (w.setStage j worker stage).workers, P worker' := by
  intro worker' hmem
  rcases List.mem_or_eq_of_mem_set hmem with hmem | rfl
  · exact h worker' hmem
  · exact hnew

namespace EmailInv

theorem start : EmailInv {} where
  rows _ ht := absurd ht List.not_mem_nil
  unborn _ _ := rfl
  workers _ hw := absurd hw List.not_mem_nil
  opened _ := Nat.zero_le _
  retries _ := le_rfl
  early _ := Nat.zero_le _
  deliveries _ := le_rfl

/-- Retries do not outnumber claims. -/
theorem retried_le (h : EmailInv w) (id : ℕ) :
    w.history.retried.count id ≤ w.history.claimsOf id :=
  (Nat.le_add_right _ _).trans ((h.retries id).trans (earlyClaims_le _ _))

theorem tick (h : EmailInv w) (now : ℕ) : EmailInv { w with clock := now } where
  rows := h.rows
  unborn := h.unborn
  workers := h.workers
  opened := h.opened
  retries := h.retries
  early := h.early
  deliveries := h.deliveries

theorem enqueue (h : EmailInv w) (inputs : List EnqueueHostNotificationEmailTaskInput) :
    EmailInv { w with
      tasks := w.tasks.enqueueHostNotificationEmailTasks w.nextId w.clock inputs
      nextId := w.nextId + inputs.length } where
  rows t ht := by
    rcases List.mem_append.mp ht with ht | ht
    · exact (h.rows t ht).mono (Nat.le_add_right _ _) rfl rfl le_rfl fun _ => id
    · obtain ⟨index, hindex, rfl⟩ := List.mem_mapIdx.mp ht
      have hclaims := h.unborn _ (Nat.le_add_right w.nextId index)
      exact
        { fresh := Nat.add_lt_add_left hindex _
          counted := (Nat.le_zero.mp (hclaims ▸ h.retried_le _)).symm
          pending := fun _ => hclaims.le.trans (Nat.zero_le _)
          sent := by rintro ⟨⟩
          failed := by rintro ⟨⟩ }
  unborn id hid := h.unborn id ((Nat.le_add_right _ _).trans hid)
  workers := h.workers
  opened := h.opened
  retries := h.retries
  early := h.early
  deliveries := h.deliveries

theorem claim (h : EmailInv w) {task : HostNotificationEmailTask}
    (hok : w.tasks.claimNextHostNotificationEmailTask w.clock = some (task, tasks)) :
    EmailInv { w with
      tasks
      workers := w.workers ++ [{ currentTask := task, stage := .sending }]
      history := { w.history with
        claims := w.history.claims ++
          [{ id := task.id, retryCount := task.retryCount, claimedAt := w.clock }] } } := by
  obtain ⟨-, next, hnext, hdue, rfl, rfl⟩ := claimNext_eq hok
  have hrow := h.rows next hnext
  have hpending : next.status = .pending := by
    simp only [HostNotificationEmailTask.isDue, Bool.and_eq_true, beq_iff_eq] at hdue
    exact hdue.1
  have hroom := hrow.pending hpending
  have hcounted := hrow.counted
  constructor
  · refine forall_modify (fun t ht hne => ?_) fun t ht hid => ?_
    · refine (h.rows t ht).mono le_rfl rfl ?_ le_rfl fun _ hmem => hmem
      exact claimsOf_concat.trans (congrArg _ (if_neg (Ne.symm hne)))
    · exact
        { fresh := (h.rows t ht).fresh
          counted := (h.rows t ht).counted
          pending := by rintro ⟨⟩
          sent := by rintro ⟨⟩
          failed := by rintro ⟨⟩ }
  · intro id hid
    have hne := (hrow.fresh.trans_le hid).ne
    exact claimsOf_concat.trans (congrArg₂ _ (h.unborn id hid) (if_neg hne))
  · intro worker hmem
    rw [claimsOf_concat]
    rcases List.mem_append.mp hmem with hmem | hmem
    · exact ⟨fun hlate => Nat.lt_add_right _ ((h.workers worker hmem).1 hlate),
        (h.workers worker hmem).2⟩
    · rw [List.mem_singleton.mp hmem, if_pos rfl]
      refine ⟨fun hlate => ?_, by rintro ⟨⟩⟩
      exact Nat.lt_succ_of_le (hlate.trans (hcounted ▸ h.retried_le next.id))
  · intro id
    have hopened := h.opened id
    rw [claimsOf_concat]
    split
    · rename_i hid
      subst hid
      exact Nat.add_le_add_right hroom 1
    · exact hopened
  · intro id
    have hretries := h.retries id
    rw [earlyClaims_concat, List.countP_append, List.countP_singleton]
    simp only [EmailWorker.mayRetry, decide_eq_true_eq, reduceCtorEq, not_false_eq_true, and_true,
      ne_eq] at hretries ⊢
    omega
  · intro id
    have hearly := h.early id
    rw [earlyClaims_concat]
    split
    · -- a claim that leads to a retry comes after at most two of them
      rename_i hid
      obtain ⟨rfl, hlt⟩ := hid
      have hle := earlyClaims_le w.history next.id
      simp only [EmailTasks.startTask] at hlt ⊢
      omega
    · exact hearly
  · intro id
    have hdeliveries := h.deliveries id
    rw [claimsOf_concat, List.countP_append, List.countP_singleton]
    simp only [EmailWorker.undelivered, decide_eq_true_eq, reduceCtorEq, not_false_eq_true,
      and_true, ne_eq] at hdeliveries ⊢
    omega

/-- A worker moves on; what was delivered and what is not marked may have grown with it. -/
theorem move (h : EmailInv w) (hj : w.workers[j]? = some worker) {delivered unmarked : List ℕ}
    (hlive : stage ≠ .finished → worker.stage ≠ .finished)
    (hkept : ∀ id ∈ w.history.delivered, id ∈ delivered)
    (hmarking : stage = .marking → worker.currentTask.id ∈ delivered)
    (hcount : ∀ id, delivered.count id + w.history.unmarked.count id +
        (if EmailWorker.undelivered id { worker with stage } then 1 else 0) ≤
      w.history.delivered.count id + unmarked.count id +
        if EmailWorker.undelivered id worker then 1 else 0) :
    EmailInv { w.setStage j worker stage with
      history := { w.history with delivered, unmarked } } := by
  constructor
  · exact fun t ht => (h.rows t ht).mono le_rfl rfl rfl le_rfl hkept
  · exact h.unborn
  · exact forall_workers_setStage
      (fun _ hmem => ⟨(h.workers _ hmem).1, fun hm => hkept _ ((h.workers _ hmem).2 hm)⟩)
      ⟨(h.workers worker (List.mem_of_getElem? hj)).1, hmarking⟩
  · exact h.opened
  · refine fun id => (Nat.add_le_add_left (countP_setStage_le hj ?_) _).trans (h.retries id)
    simp only [EmailWorker.mayRetry, decide_eq_true_eq]
    exact fun hp => ⟨hp.1, hp.2.1, hlive hp.2.2⟩
  · exact h.early
  · intro id
    have hset := Tally.countP_set_add (b := { worker with stage })
      (p := EmailWorker.undelivered id) hj
    have hdeliveries := h.deliveries id
    have hid := hcount id
    show delivered.count id + w.history.retried.count id +
      (w.workers.set j { worker with stage }).countP (EmailWorker.undelivered id) ≤
        w.history.claimsOf id + unmarked.count id
    omega

/-- A worker goes on to another statement, or ends without a record. -/
theorem setStage (h : EmailInv w) (hj : w.workers[j]? = some worker)
    (hstage : stage = .finished ∨
      worker.stage ≠ .finished ∧ worker.stage ≠ .marking ∧ stage ≠ .marking) :
    EmailInv (w.setStage j worker stage) := by
  refine h.move hj (fun hlive => (hstage.resolve_left hlive).1) (fun _ hmem => hmem)
    (fun hmark => ?_) fun id => Nat.add_le_add_left ?_ _
  · rcases hstage with rfl | ⟨-, -, hstage⟩
    · cases hmark
    · exact absurd hmark hstage
  · rcases hstage with rfl | ⟨hlive, hfailed, -⟩
    · simp [EmailWorker.undelivered]
    · simp only [EmailWorker.undelivered, hlive, hfailed, decide_eq_true_eq, ne_eq,
        not_false_eq_true, and_true]
      split_ifs <;> omega

theorem finish (h : EmailInv w) (hj : w.workers[j]? = some worker) :
    EmailInv (w.setStage j worker .finished) :=
  h.setStage hj (.inl rfl)

/-- The mailer reports that the mail is out. -/
theorem deliver (h : EmailInv w) (hj : w.workers[j]? = some worker)
    (hsending : worker.stage = .sending) :
    EmailInv { w.setStage j worker .marking with
      history := { w.history with
        delivered := w.history.delivered ++ [worker.currentTask.id] } } := by
  refine h.move hj (by simp [hsending]) (fun _ => List.mem_append_left _)
    (fun _ => List.mem_append_right _ List.mem_cons_self) fun id => ?_
  simp only [EmailWorker.undelivered, hsending, count_concat]
  simp [Nat.add_right_comm]

/-- The mark of a sent mail is lost. -/
theorem unmark (h : EmailInv w) (hj : w.workers[j]? = some worker)
    (hmarking : worker.stage = .marking) {message : String} :
    EmailInv { w.setStage j worker (.recovering message) with
      history := { w.history with
        unmarked := w.history.unmarked ++ [worker.currentTask.id] } } := by
  refine h.move hj (by simp [hmarking]) (fun _ hmem => hmem) (by rintro ⟨⟩) fun id => ?_
  simp only [EmailWorker.undelivered, hmarking, count_concat]
  simp [Nat.add_assoc]

theorem recordSent (h : EmailInv w) (hj : w.workers[j]? = some worker)
    (hmarking : worker.stage = .marking) (fault : Option String) :
    EmailInv (w.recordSent j worker fault) := by
  unfold EmailWorld.recordSent
  split
  · rename_i tasks hok
    have hsent := ((h.workers worker (List.mem_of_getElem? hj)).2 hmarking)
    have hdone := h.finish hj
    rw [updateTask_eq hok]
    refine { hdone with rows := forall_modify (fun t ht _ => hdone.rows t ht) fun t ht hid => ?_ }
    exact
      { fresh := (hdone.rows t ht).fresh
        counted := (hdone.rows t ht).counted
        pending := by rintro ⟨⟩
        sent := fun _ => hid ▸ hsent
        failed := by rintro ⟨⟩ }
  · exact h.unmark hj hmarking

/-- The failure is final. -/
theorem fail (h : EmailInv w) (hj : w.workers[j]? = some worker) {errorMessage : String}
    (hlate : HOST_NOTIFICATION_EMAIL_MAX_RETRIES ≤ worker.currentTask.retryCount) :
    EmailInv { w.setStage j worker .finished with
      tasks := Keyed.modify (·.id) worker.currentTask.id
        (EmailTasks.failTask w.clock errorMessage) w.tasks } := by
  have hclaims := (h.workers worker (List.mem_of_getElem? hj)).1 hlate
  have hdone := h.finish hj
  refine { hdone with rows := forall_modify (fun t ht _ => hdone.rows t ht) fun t ht hid => ?_ }
  exact
    { fresh := (hdone.rows t ht).fresh
      counted := (hdone.rows t ht).counted
      pending := by rintro ⟨⟩
      sent := by rintro ⟨⟩
      failed := fun _ => hid ▸ hclaims }

/-- The task is set back for a retry. -/
theorem retry (h : EmailInv w) (hj : w.workers[j]? = some worker) {errorMessage : String}
    (hlive : worker.stage ≠ .finished) (hfailed : worker.stage ≠ .marking)
    (hcount : worker.currentTask.retryCount < HOST_NOTIFICATION_EMAIL_MAX_RETRIES) :
    EmailInv { w.setStage j worker .finished with
      tasks := Keyed.modify (·.id) worker.currentTask.id
        (EmailTasks.retryTask w.clock errorMessage) w.tasks
      history := { w.history with
        retried := w.history.retried ++ [worker.currentTask.id] } } := by
  have hmem := List.mem_of_getElem? hj
  constructor
  · refine forall_modify (fun t ht hne => ?_) fun t ht hid => ?_
    · refine (h.rows t ht).mono le_rfl ?_ rfl le_rfl fun _ hmem => hmem
      rw [count_concat, if_neg (Ne.symm hne), Nat.add_zero]
    · show EmailTaskInv _ { w.history with
        retried := w.history.retried ++ [worker.currentTask.id] } _
      rw [← hid]
      exact (h.rows t ht).retry (h.opened t.id)
  · exact h.unborn
  · exact forall_workers_setStage h.workers ⟨(h.workers worker hmem).1, by rintro ⟨⟩⟩
  · intro id
    have hopened := h.opened id
    simp only [EmailHistory.claimsOf, count_concat] at hopened ⊢
    omega
  · intro id
    have hset := Tally.countP_set_add (b := { worker with stage := .finished })
      (p := EmailWorker.mayRetry id) hj
    have hretries := h.retries id
    simp only [EmailWorker.mayRetry, hlive, hcount, not_false_eq_true, and_true, ne_eq,
      not_true_eq_false, and_false, decide_eq_true_eq, if_false] at hset
    simp only [EmailWorld.setStage, count_concat]
    simp only [EmailHistory.earlyClaims] at hretries ⊢
    omega
  · exact h.early
  · intro id
    have hset := Tally.countP_set_add (b := { worker with stage := .finished })
      (p := EmailWorker.undelivered id) hj
    have hdeliveries := h.deliveries id
    simp only [EmailWorker.undelivered, hlive, hfailed, not_false_eq_true, and_true, ne_eq,
      not_true_eq_false, and_false, false_and, decide_eq_true_eq, if_false] at hset
    simp only [EmailWorld.setStage, count_concat]
    simp only [EmailHistory.claimsOf] at hdeliveries ⊢
    omega

theorem recordFailure (h : EmailInv w) (hj : w.workers[j]? = some worker)
    (hlive : worker.stage ≠ .finished) (hfailed : worker.stage ≠ .marking)
    {onThrow : String → EmailStage} (hthrow : ∀ message, onThrow message ≠ .marking)
    (errorMessage : String) (fault : Option String) :
    EmailInv (w.recordFailure j worker errorMessage fault onThrow) := by
  unfold EmailWorld.recordFailure
  simp only
  split
  · rename_i tasks hok
    unfold EmailTasks.retryOrFailHostNotificationEmailTask at hok
    split at hok
    · rename_i hlate
      rw [updateTask_eq hok, if_pos hlate]
      exact h.fail hj hlate
    · rename_i hcount
      rw [updateTask_eq hok, if_neg hcount]
      exact h.retry hj hlive hfailed (not_le.mp hcount)
  · exact h.setStage hj (.inr ⟨hlive, hfailed, hthrow _⟩)

/-- What either clean-up does. -/
theorem requeue (h : EmailInv w) {q : HostNotificationEmailTask → Bool} {lastError : String} :
    EmailInv (w.requeued q (w.tasks.requeueWhere q w.clock lastError)) := by
  have hle (id : ℕ) : w.history.requeued.count id ≤
      (w.history.requeued ++ (w.tasks.filter q).map (·.id)).count id := by
    rw [List.count_append]
    exact Nat.le_add_right _ _
  constructor
  · intro t' ht'
    obtain ⟨t, ht, rfl⟩ := List.mem_map.mp ht'
    split
    · rename_i hq
      have hmore : 0 < ((w.tasks.filter q).map (·.id)).count t.id :=
        List.count_pos_iff.mpr (List.mem_map_of_mem (List.mem_filter.mpr ⟨ht, hq⟩))
      exact (h.rows t ht).requeue (h.opened t.id) hmore
    · exact (h.rows t ht).mono le_rfl rfl rfl (hle _) fun _ hmem => hmem
  · exact h.unborn
  · exact h.workers
  · exact fun id => (h.opened id).trans (Nat.add_le_add_right (Nat.add_le_add_left (hle id) _) _)
  · exact h.retries
  · exact fun id => (h.early id).trans (Nat.add_le_add_left (hle id) _)
  · exact h.deliveries

theorem filter (h : EmailInv w) (q : HostNotificationEmailTask → Bool) :
    EmailInv { w with tasks := w.tasks.filter q } :=
  { h with rows := fun t ht => h.rows t (List.mem_of_mem_filter ht) }

theorem mailed (h : EmailInv w) (hj : w.workers[j]? = some worker)
    (hsending : worker.stage = .sending) (result : MailResult) :
    EmailInv (w.mailed j worker result) := by
  have hother (stage : EmailStage) (hstage : stage ≠ .marking) :
      EmailInv (w.setStage j worker stage) := by
    refine h.setStage hj (.inr ⟨?_, ?_, hstage⟩)
    · rw [hsending]
      decide
    · rw [hsending]
      decide
  cases result with
  | success => exact h.deliver hj hsending
  | failure error => exact hother _ (by simp)
  | thrown message => exact hother _ (by simp)

theorem step (h : EmailInv w) (hs : emailStep w event = some w') : EmailInv w' := by
  cases event with
  | tick now =>
      simp only [emailStep] at hs
      split at hs
      · cases hs
        exact h.tick now
      · cases hs
  | enqueue inputs =>
      cases hs
      exact h.enqueue inputs
  | claim =>
      obtain ⟨⟨task, tasks⟩, hok, rfl⟩ := Option.map_eq_some_iff.mp hs
      exact h.claim hok
  | mailed j result =>
      simp only [emailStep] at hs
      split at hs
      · rename_i worker hj
        split at hs
        · cases hs
          exact h.mailed hj ‹_› result
        · cases hs
      · cases hs
  | statement j fault =>
      simp only [emailStep] at hs
      split at hs
      · rename_i worker hj
        split at hs
        · cases hs
          exact h.recordSent hj ‹_› fault
        · rename_i errorMessage hstage
          cases hs
          exact h.recordFailure hj (by simp [hstage]) (by simp [hstage]) (by simp) _ fault
        · rename_i errorMessage hstage
          cases hs
          exact h.recordFailure hj (by simp [hstage]) (by simp [hstage]) (by simp) _ fault
        · cases hs
        · cases hs
      · cases hs
  | crash j =>
      obtain ⟨worker, hj, rfl⟩ := Option.map_eq_some_iff.mp hs
      exact h.finish hj
  | restart =>
      cases hs
      exact h.requeue
  | timeout =>
      cases hs
      exact h.requeue
  | deleteUser userId =>
      cases hs
      exact h.filter _
  | deleteHost hostId =>
      cases hs
      exact h.filter _

end EmailInv

theorem emailInv_of_reach (h : Machine.Reach emailStep Machine.free {} w) : EmailInv w :=
  h.invariant .start fun hinv _ hs => hinv.step hs

/-- In every run a task is claimed at most four times, and twice more for each time that a clean-up
requeued it; the mailer reports its mail as sent at most once, and once more for each time it
was requeued or its mark was lost.  A task that has failed was claimed four times at least, and one
that is sent was sent. -/
theorem email_attempts (h : Machine.Reach emailStep Machine.free {} w) (id : ℕ) :
    w.history.claimsOf id ≤
        HOST_NOTIFICATION_EMAIL_MAX_RETRIES + 1 + 2 * w.history.requeued.count id ∧
      w.history.delivered.count id ≤
        1 + w.history.requeued.count id + w.history.unmarked.count id ∧
      ∀ t ∈ w.tasks, t.id = id →
        (t.status = .failed → HOST_NOTIFICATION_EMAIL_MAX_RETRIES + 1 ≤ w.history.claimsOf id) ∧
        (t.status = .sent → id ∈ w.history.delivered) := by
  have hinv := emailInv_of_reach h
  have hopened := hinv.opened id
  have hretries := hinv.retries id
  have hearly := hinv.early id
  have hdeliveries := hinv.deliveries id
  refine ⟨by omega, by omega, ?_⟩
  rintro t ht rfl
  exact ⟨(hinv.rows t ht).failed, (hinv.rows t ht).sent⟩

end Invariant

/-! ## The pace -/

/-- A step that leaves on record what was attempted within the last minute. -/
def EmailWorld.KeepsAttempts (w : EmailWorld) : EmailEvent → Prop
  | .restart => False
  | .deleteUser userId => ∀ t ∈ w.tasks, t.userId = userId →
      t.startedSince w.clock HOST_NOTIFICATION_EMAIL_INTERVAL_MS = false
  | .deleteHost hostId => ∀ t ∈ w.tasks, t.hostId = hostId →
      t.startedSince w.clock HOST_NOTIFICATION_EMAIL_INTERVAL_MS = false
  | _ => True

/-- No two tasks are being processed. -/
def EmailWorld.Exclusive (w : EmailWorld) : Prop :=
  ∀ t ∈ w.tasks, ∀ t' ∈ w.tasks, t.isProcessing = true → t'.isProcessing = true → t.id = t'.id

/-- What a step does that is not a claim. -/
structure EmailKept (w w' : EmailWorld) (guarded : Prop) : Prop where
  claims : w'.history.claims = w.history.claims
  clock : w.clock ≤ w'.clock
  calm : ∀ t' ∈ w'.tasks, t'.isProcessing = true →
    ∃ t ∈ w.tasks, t.isProcessing = true ∧ t.id = t'.id
  rows : guarded → ∀ t ∈ w.tasks, ∀ s, t.startedAt = some s →
    s + HOST_NOTIFICATION_EMAIL_INTERVAL_MS < w'.clock ∨ ∃ t' ∈ w'.tasks, t'.startedAt = some s

/-- A claim that still keeps the next one waiting, as long as it has to. -/
def EmailWorld.Remembers (w : EmailWorld) (c : EmailClaim) : Prop :=
  c.claimedAt + HOST_NOTIFICATION_EMAIL_INTERVAL_MS < w.clock ∨
    ∃ t ∈ w.tasks, ∃ s, t.startedAt = some s ∧ c.claimedAt ≤ s

/-- The claims since `before`. -/
def EmailWorld.Spaced (before : List EmailClaim) (w : EmailWorld) : Prop :=
  ∃ new, w.history.claims = before ++ new ∧
    new.Pairwise (fun a b =>
      a.claimedAt + HOST_NOTIFICATION_EMAIL_INTERVAL_MS < b.claimedAt) ∧
    ∀ c ∈ new, w.Remembers c

section Pace

variable {w w' : EmailWorld} {worker : EmailWorker} {t : HostNotificationEmailTask}
variable {j now ms : ℕ} {tasks : EmailTasks} {event : EmailEvent} {guarded : Prop}
variable {f : HostNotificationEmailTask → HostNotificationEmailTask} {before : List EmailClaim}

theorem started_before_of_not_since {s : ℕ} (h : t.startedSince now ms = false)
    (hs : t.startedAt = some s) : s + ms < now := by
  simpa [HostNotificationEmailTask.startedSince, hs] using h

namespace EmailKept

/-- The rows are what they were. -/
theorem same (hclaims : w'.history.claims = w.history.claims) (hclock : w.clock ≤ w'.clock)
    (htasks : w'.tasks = w.tasks) : EmailKept w w' guarded where
  claims := hclaims
  clock := hclock
  calm t' ht' hp := ⟨t', htasks ▸ ht', hp, rfl⟩
  rows _ t ht _ hs := .inr ⟨t, htasks.symm ▸ ht, hs⟩

/-- The row of a worker that is done is rewritten. -/
theorem modify (hclaims : w'.history.claims = w.history.claims) (hclock : w'.clock = w.clock)
    {id : ℕ} (htasks : w'.tasks = Keyed.modify (·.id) id f w.tasks)
    (hstatus : ∀ t, (f t).isProcessing = false) (hstarted : ∀ t, (f t).startedAt = t.startedAt) :
    EmailKept w w' guarded where
  claims := hclaims
  clock := hclock.ge
  calm := by
    rw [htasks]
    refine forall_modify (fun t ht _ hp => ⟨t, ht, hp, rfl⟩) fun t _ _ hp => ?_
    rw [hstatus t] at hp
    cases hp
  rows _ t ht s hs := by
    rw [htasks]
    refine .inr ⟨_, Keyed.mem_modify.mpr ⟨t, ht, rfl⟩, ?_⟩
    split
    · exact (hstarted t).trans hs
    · exact hs

theorem recordSent {fault : Option String} :
    EmailKept w (w.recordSent j worker fault) guarded := by
  unfold EmailWorld.recordSent
  split
  · rename_i tasks hok
    exact .modify rfl rfl (updateTask_eq hok) (fun _ => rfl) fun _ => rfl
  · exact .same rfl le_rfl rfl

theorem recordFailure {errorMessage : String} {fault : Option String}
    {onThrow : String → EmailStage} :
    EmailKept w (w.recordFailure j worker errorMessage fault onThrow) guarded := by
  unfold EmailWorld.recordFailure
  simp only
  split
  · rename_i tasks hok
    unfold EmailTasks.retryOrFailHostNotificationEmailTask at hok
    split at hok
    · exact .modify rfl rfl (updateTask_eq hok) (fun _ => rfl) fun _ => rfl
    · exact .modify rfl rfl (updateTask_eq hok) (fun _ => rfl) fun _ => rfl
  · exact .same rfl le_rfl rfl

theorem mailed {result : MailResult} : EmailKept w (w.mailed j worker result) guarded := by
  cases result with
  | success => exact .same rfl le_rfl rfl
  | failure error => exact .same rfl le_rfl rfl
  | thrown message => exact .same rfl le_rfl rfl

/-- Rows that were not attempted of late are requeued. -/
theorem requeue {q : HostNotificationEmailTask → Bool} {lastError : String}
    (hq : guarded → ∀ t, q t = true → ∀ s, t.startedAt = some s →
      s + HOST_NOTIFICATION_EMAIL_INTERVAL_MS < w.clock) :
    EmailKept w (w.requeued q (w.tasks.requeueWhere q w.clock lastError)) guarded where
  claims := rfl
  clock := le_rfl
  calm t' ht' hp := by
    obtain ⟨t, ht, rfl⟩ := List.mem_map.mp ht'
    split at hp
    · cases hp
    · rename_i hnot
      exact ⟨t, ht, hp, by rw [if_neg hnot]⟩
  rows hg t ht s hs := by
    cases hqt : q t with
    | true => exact .inl (hq hg t hqt s hs)
    | false => exact .inr ⟨t, List.mem_map.mpr ⟨t, ht, by simp [hqt]⟩, hs⟩

/-- Rows that were not attempted of late go. -/
theorem filter {q : HostNotificationEmailTask → Bool}
    (hq : guarded → ∀ t ∈ w.tasks, q t = false →
      t.startedSince w.clock HOST_NOTIFICATION_EMAIL_INTERVAL_MS = false) :
    EmailKept w { w with tasks := w.tasks.filter q } guarded where
  claims := rfl
  clock := le_rfl
  calm t' ht' hp := ⟨t', List.mem_of_mem_filter ht', hp, rfl⟩
  rows hg t ht s hs := by
    cases hqt : q t with
    | true => exact .inr ⟨t, List.mem_filter.mpr ⟨ht, hqt⟩, hs⟩
    | false => exact .inl (started_before_of_not_since (hq hg t ht hqt) hs)

theorem enqueue {inputs : List EnqueueHostNotificationEmailTaskInput} {nextId : ℕ} :
    EmailKept w
      { w with
        tasks := w.tasks.enqueueHostNotificationEmailTasks w.nextId w.clock inputs
        nextId } guarded where
  claims := rfl
  clock := le_rfl
  calm t' ht' hp := by
    rcases List.mem_append.mp ht' with ht' | ht'
    · exact ⟨t', ht', hp, rfl⟩
    · obtain ⟨index, hindex, rfl⟩ := List.mem_mapIdx.mp ht'
      cases hp
  rows _ t ht s hs := .inr ⟨t, List.mem_append_left _ ht, hs⟩

end EmailKept

/-- A timed-out task was attempted more than a minute ago. -/
theorem started_before_of_timedOut {s : ℕ} (h : EmailTasks.isTimedOut now t = true)
    (hs : t.startedAt = some s) : s + HOST_NOTIFICATION_EMAIL_INTERVAL_MS < now := by
  simp only [EmailTasks.isTimedOut, HostNotificationEmailTask.startedBefore, hs,
    Bool.and_eq_true, decide_eq_true_eq] at h
  have hle : HOST_NOTIFICATION_EMAIL_INTERVAL_MS ≤
    HOST_NOTIFICATION_EMAIL_PROCESSING_TIMEOUT_MS := by decide
  omega

/-- Every step is a claim, or keeps what there was. -/
theorem emailKept_of_step (hs : emailStep w event = some w') :
    event = .claim ∨ EmailKept w w' (w.KeepsAttempts event) := by
  cases event with
  | tick now =>
      simp only [emailStep] at hs
      split at hs
      · cases hs
        exact .inr (.same rfl ‹_› rfl)
      · cases hs
  | enqueue inputs =>
      cases hs
      exact .inr .enqueue
  | claim => exact .inl rfl
  | mailed j result =>
      simp only [emailStep] at hs
      split at hs
      · split at hs
        · cases hs
          exact .inr .mailed
        · cases hs
      · cases hs
  | statement j fault =>
      simp only [emailStep] at hs
      split at hs
      · split at hs
        · cases hs
          exact .inr .recordSent
        · cases hs
          exact .inr .recordFailure
        · cases hs
          exact .inr .recordFailure
        · cases hs
        · cases hs
      · cases hs
  | crash j =>
      obtain ⟨worker, -, rfl⟩ := Option.map_eq_some_iff.mp hs
      exact .inr (.same rfl le_rfl rfl)
  | restart =>
      cases hs
      exact .inr (.requeue fun hg => hg.elim)
  | timeout =>
      cases hs
      exact .inr (.requeue fun _ t ht s hs => started_before_of_timedOut ht hs)
  | deleteUser userId =>
      cases hs
      exact .inr (.filter fun hg t ht hq => hg t ht (by simpa using hq))
  | deleteHost hostId =>
      cases hs
      exact .inr (.filter fun hg t ht hq => hg t ht (by simpa using hq))

/-- What a claim does to the rows, and that none kept it waiting. -/
theorem claim_of_step (hs : emailStep w .claim = some w') :
    (∀ t ∈ w.tasks, t.throttles w.clock = false) ∧
      ∃ next ∈ w.tasks, w'.tasks =
          Keyed.modify (·.id) next.id (EmailTasks.startTask w.clock) w.tasks ∧
        w'.clock = w.clock ∧
        ∃ c, w'.history.claims = w.history.claims ++ [c] ∧ c.claimedAt = w.clock := by
  obtain ⟨⟨task, tasks⟩, hok, rfl⟩ := Option.map_eq_some_iff.mp hs
  obtain ⟨hcalm, next, hnext, -, rfl, rfl⟩ := claimNext_eq hok
  exact ⟨hcalm, next, hnext, rfl, rfl, _, rfl, rfl⟩

theorem EmailWorld.Exclusive.step (h : w.Exclusive) (hs : emailStep w event = some w') :
    w'.Exclusive := by
  rcases emailKept_of_step hs with rfl | hkept
  · obtain ⟨hcalm, next, -, htasks, -⟩ := claim_of_step hs
    have hself : ∀ t ∈ w'.tasks, t.isProcessing = true → t.id = next.id := by
      rw [htasks]
      refine forall_modify (fun t ht _ hp => ?_) fun t _ hid _ => hid
      have hnot := hcalm t ht
      simp [HostNotificationEmailTask.throttles, hp] at hnot
    exact fun t ht t' ht' hp hp' => (hself t ht hp).trans (hself t' ht' hp').symm
  · intro t ht t' ht' hp hp'
    obtain ⟨t₀, ht₀, hp₀, hid⟩ := hkept.calm t ht hp
    obtain ⟨t₁, ht₁, hp₁, hid'⟩ := hkept.calm t' ht' hp'
    exact hid.symm.trans ((h t₀ ht₀ t₁ ht₁ hp₀ hp₁).trans hid')

theorem EmailWorld.Spaced.step (h : w.Spaced before) (hok : w.KeepsAttempts event)
    (hs : emailStep w event = some w') : w'.Spaced before := by
  obtain ⟨new, hclaims, hspaced, hremembered⟩ := h
  rcases emailKept_of_step hs with rfl | hkept
  · obtain ⟨hcalm, next, hnext, htasks, hclock, c, hconcat, hat⟩ := claim_of_step hs
    -- what is remembered of the earlier claims did not keep this one waiting
    have hpast : ∀ a ∈ new, a.claimedAt + HOST_NOTIFICATION_EMAIL_INTERVAL_MS < w.clock := by
      intro a ha
      rcases hremembered a ha with hlt | ⟨t, ht, s, hstarted, hle⟩
      · exact hlt
      · have hnot := hcalm t ht
        simp only [HostNotificationEmailTask.throttles, Bool.or_eq_false_iff] at hnot
        have hlt := started_before_of_not_since hnot.2 hstarted
        omega
    refine ⟨new ++ [c], by rw [hconcat, hclaims, List.append_assoc], ?_, fun a ha => ?_⟩
    · refine List.pairwise_append.mpr ⟨hspaced, List.pairwise_singleton _ _, fun a ha b hb => ?_⟩
      rw [List.mem_singleton.mp hb, hat]
      exact hpast a ha
    · rcases List.mem_append.mp ha with ha | ha
      · exact .inl (hclock ▸ hpast a ha)
      · rw [List.mem_singleton.mp ha]
        rw [EmailWorld.Remembers, htasks]
        refine .inr ⟨_, Keyed.mem_modify.mpr ⟨next, hnext, rfl⟩, w.clock, ?_, hat.le⟩
        rw [if_pos rfl]
        rfl
  · refine ⟨new, hkept.claims.trans hclaims, hspaced, fun a ha => ?_⟩
    rcases hremembered a ha with hlt | ⟨t, ht, s, hstarted, hle⟩
    · exact .inl (hlt.trans_le hkept.clock)
    · rcases hkept.rows hok t ht s hstarted with hlt | ⟨t', ht', hstarted'⟩
      · exact .inl ((Nat.add_le_add_right hle _).trans_lt hlt)
      · exact .inr ⟨t', ht', s, hstarted', hle⟩

/-- In every run at most one task is processed at a time; and from wherever it has come to, as long
as no server starts and no task of the last minute is deleted, any two claims are more than a
minute apart. -/
theorem email_claims_spaced (hstart : Machine.Reach emailStep Machine.free {} w)
    (h : Machine.Reach emailStep EmailWorld.KeepsAttempts w w') :
    w'.Exclusive ∧
      ∃ new, w'.history.claims = w.history.claims ++ new ∧
        new.Pairwise fun a b =>
          a.claimedAt + HOST_NOTIFICATION_EMAIL_INTERVAL_MS < b.claimedAt := by
  have hfree : Machine.Reach emailStep Machine.free {} w' :=
    hstart.trans (h.mono fun _ _ _ => trivial)
  have hspaced : w'.Spaced w.history.claims := by
    refine h.invariant ⟨[], (List.append_nil _).symm, .nil, fun _ ha => ?_⟩
      fun hinv hok hs => hinv.step hok hs
    exact absurd ha List.not_mem_nil
  obtain ⟨new, hclaims, hpairs, -⟩ := hspaced
  refine ⟨hfree.invariant (fun t ht => ?_) fun hinv _ hs => hinv.step hs, new, hclaims, hpairs⟩
  exact absurd ht List.not_mem_nil

end Pace

/-! ## A slow mailer, and two mails in a row -/

def noticeTo (userId : ℕ) : EnqueueHostNotificationEmailTaskInput :=
  { userId, hostId := 7, email := "user@example.com", username := "user", hostName := "hk-1"
    title := "maintenance", content := "tonight" }

/-- The first worker is still waiting for the mailer when its task is requeued. -/
def slowMailer : List EmailEvent :=
  [.tick 1000, .enqueue [noticeTo 1], .claim, .tick 700000, .timeout, .claim,
    .mailed 1 .success, .mailed 0 .success, .statement 1 none, .statement 0 none]

theorem email_attempts_slow : ∃ w, Machine.Reach emailStep Machine.free {} w ∧
    w.history.requeued = [0] ∧ w.history.delivered = [0, 0] ∧ w.history.claimsOf 0 ≤ 6 ∧
      w.history.delivered.count 0 ≤ 2 := by
  have hview : (Machine.exec emailStep {} slowMailer).map
      (fun w => (w.history.requeued, w.history.delivered, w.history.unmarked)) =
        some ([0], [0, 0], []) := by
    decide
  obtain ⟨w, hw, hviews⟩ := Option.map_eq_some_iff.mp hview
  simp only [Prod.mk.injEq] at hviews
  obtain ⟨hrequeued, hdelivered, hunmarked⟩ := hviews
  have hrun := Machine.reach_of_exec hw
  obtain ⟨hclaims, hsent, -⟩ := email_attempts hrun 0
  rw [hrequeued] at hclaims
  rw [hrequeued, hunmarked] at hsent
  exact ⟨w, hrun, hrequeued, hdelivered, hclaims, hsent⟩

def twoNotices : List EmailEvent := [.tick 100000, .enqueue [noticeTo 1, noticeTo 2]]

def sentInTurn : List EmailEvent :=
  [.claim, .mailed 0 .success, .statement 0 none, .tick 160001, .claim]

theorem email_claims_spaced_two : ∃ w w', Machine.Reach emailStep Machine.free {} w ∧
    Machine.Reach emailStep EmailWorld.KeepsAttempts w w' ∧
    w'.history.claims.map (·.claimedAt) = [100000, 160001] ∧ w'.Exclusive := by
  have hstart : (Machine.exec emailStep {} twoNotices).isSome = true := by decide
  obtain ⟨w, hw⟩ := Option.isSome_iff_exists.mp hstart
  have hview : ((Machine.exec emailStep {} twoNotices).bind fun w =>
      Machine.exec emailStep w sentInTurn).map
        (fun w => w.history.claims.map (·.claimedAt)) = some [100000, 160001] := by
    decide
  rw [hw, Option.bind_some] at hview
  obtain ⟨w', hw', hclaims⟩ := Option.map_eq_some_iff.mp hview
  have hrun := Machine.reach_of_exec hw
  have hkept : Machine.Reach emailStep EmailWorld.KeepsAttempts w w' := by
    refine Machine.reach_of_exec_of (P := fun _ => True) hw' trivial (fun s i hi _ => ?_)
      fun _ _ _ _ _ _ => trivial
    simp only [sentInTurn, List.mem_cons, List.not_mem_nil, or_false] at hi
    rcases hi with rfl | rfl | rfl | rfl | rfl <;> trivial
  exact ⟨w, w', hrun, hkept, hclaims, (email_claims_spaced hrun hkept).1⟩

end Incudal
