/-
# `HostingRuns` — the income of a host owner, moved by several at once

Three kinds of transactions move it: the job that unfreezes what is due, the
deductions of refunds, and the owner's withdrawals.  Each takes the owner's
advisory lock and lets it go when it commits, and what it has written is seen
by the others only then.

A deduction and a withdrawal take the lock first, so that what they read stands
until they commit (`HostingWorld.StageOk`).  The job takes it after it has read
the rows: a deduction in between that shortens one of them is not noticed, since
the row is still frozen, and the job credits what it has read
(`deducted_income_unfrozen`).  In a run without such a write nothing is lost and
nothing is credited twice (`hosting_conserved`).
-/
import Incudal.HostedRecovery
import Incudal.HourlyBilling
import Incudal.Lib.Machine

namespace Incudal

/-! ## Transactions -/

/-- The arguments of `deductHostingBalance`. -/
structure HostingDeduction where
  hostId : ℕ
  amount : Cents
  instanceId : ℕ
  now : Time
deriving DecidableEq, Repr

/-- A transaction, by the step that it makes next. -/
inductive HostingStage
  /-- `unfreezeHostingBalance`: its two queries, its locks, and what it writes -/
  | unfreezeSelect (now : Time)
  | unfreezeRead (now : Time) (recordIds : List ℕ)
  | unfreezeLock (now : Time) (lockedRecords : List HostingBalanceLog) (userIds : List ℕ)
  | unfreezeWrite (now : Time) (lockedRecords : List HostingBalanceLog)
  /-- `deductHostingBalance`: its lock, its queries, and what it writes -/
  | deductLock (d : HostingDeduction)
  | deductLogs (d : HostingDeduction) (owner : ℕ)
  | deductUser (d : HostingDeduction) (owner : ℕ) (frozenLogs : List HostingBalanceLog)
  | deductBalance (d : HostingDeduction) (owner : ℕ) (frozenLogs : List HostingBalanceLog)
      (availableHostingBalance : Units)
  | deductWrite (d : HostingDeduction) (owner : ℕ) (frozenLogs : List HostingBalanceLog)
      (availableHostingBalance availableBalance : Units)
  /-- the withdrawal; its amount is a number of units, whole or not -/
  | withdrawLock (userId : ℕ) (amount : ℚ) (now : Time)
  | withdrawWrite (userId : ℕ) (amount : ℚ) (now : Time)
deriving DecidableEq, Repr

/-- A row of `hosting_withdrawals`. -/
structure HostingWithdrawal where
  id : ℕ
  userId : ℕ
  amount : Cents
  feeAmount : Cents
  actualAmount : Cents
deriving DecidableEq, Repr

/-- What has been credited to an owner or taken, for the income rows by the row. -/
inductive HostingEffect
  | credited (userId logId : ℕ) (amount : Units)
  | unfrozen (userId logId : ℕ) (amount : Units)
  | fromFrozen (userId logId : ℕ) (amount : Units)
  | fromAvailable (userId : ℕ) (amount : Units)
  | withdrawn (userId : ℕ) (amount : Units)
deriving DecidableEq, Repr

/-- The database as it is committed, who holds the lock of an owner, and the transactions. -/
structure HostingWorld where
  db : Db
  locks : ℕ → Option ℕ := fun _ => none
  stages : ℕ → Option HostingStage := fun _ => none
  withdrawals : List HostingWithdrawal := []
  effects : List HostingEffect := []

namespace HostingWorld

def goto (w : HostingWorld) (pid : ℕ) (stage : HostingStage) : HostingWorld :=
  { w with stages := Function.update w.stages pid (some stage) }

/-- The end of a transaction, committed or rolled back, lets go of its locks. -/
def ended (w : HostingWorld) (pid : ℕ) : HostingWorld :=
  { w with
      stages := Function.update w.stages pid none
      locks := fun userId => if w.locks userId = some pid then none else w.locks userId }

/-- `tryAdvisoryTransactionLock`: a transaction may take a lock again. -/
def tryLock (w : HostingWorld) (pid userId : ℕ) : Option HostingWorld :=
  if w.locks userId = none ∨ w.locks userId = some pid then
    some { w with locks := Function.update w.locks userId (some pid) }
  else none

def commit (w : HostingWorld) (pid : ℕ) (db : Db) (effects : List HostingEffect) : HostingWorld :=
  { w with db, effects := w.effects ++ effects }.ended pid

end HostingWorld

/-! ### Unfreezing -/

/-- A row that the job updates. -/
def isUnfrozenBy (now : Time) (lockedRecords : List HostingBalanceLog) (log : HostingBalanceLog) :
    Bool :=
  lockedRecords.any (fun record => record.id == log.id) && log.isDue now

/-- What the job writes; `none` when it throws. -/
def writeUnfrozen (db : Db) (now : Time) (lockedRecords : List HostingBalanceLog) : Option Db :=
  -- the rows must all still be frozen, but they are not read again
  if (db.hostingLogs.filter (isUnfrozenBy now lockedRecords)).length ≠ lockedRecords.length then
    none
  else if lockedRecords.all fun record => (db.users record.userId).isSome then
    some { db with
      hostingLogs := db.hostingLogs.map fun log =>
        if isUnfrozenBy now lockedRecords log then { log with frozen := false } else log
      users := fun userId => (db.users userId).map fun user =>
        { user with hostingBalance := user.hostingBalance +
            Keyed.total HostingBalanceLog.amount (lockedRecords.filter (·.userId == userId)) } }
  else none

/-! ### Deducting -/

/-- What the loop does to the table for one row: it is deleted, or shortened. -/
def deductRow (log : HostingBalanceLog) (deductFromThis : Units)
    (table : List HostingBalanceLog) : List HostingBalanceLog :=
  if deductFromThis ≥ log.amount then Keyed.erase HostingBalanceLog.id log.id table
  else
    Keyed.modify HostingBalanceLog.id log.id
      (fun row => { row with amount := row.amount - deductFromThis }) table

/-- The frozen rows are used up one after the other, or the last one is shortened: the table, what
remains to be deducted, and what has been taken. -/
def deductFrozenLogs (owner : ℕ) : Units → List HostingBalanceLog → List HostingBalanceLog →
    List HostingBalanceLog × Units × List HostingEffect
  | remainingToDeduct, [], table => (table, remainingToDeduct, [])
  | remainingToDeduct, log :: logs, table =>
      if remainingToDeduct ≤ 0 then (table, remainingToDeduct, [])
      else
        let deductFromThis := min log.amount remainingToDeduct
        let (table, remaining, effects) :=
          deductFrozenLogs owner (remainingToDeduct - deductFromThis) logs
            (deductRow log deductFromThis table)
        (table, remaining, .fromFrozen owner log.id deductFromThis :: effects)

/-- What the available hosting balance gives, if it is still there. -/
def availableShare (db : Db) (owner : ℕ) (availableHostingBalance remainingToDeduct : Units) :
    Units :=
  let deductFromAvailable := min availableHostingBalance remainingToDeduct
  if 0 < remainingToDeduct ∧ 0 < deductFromAvailable ∧
      (db.users owner).any (fun u => decide (deductFromAvailable ≤ u.hostingBalance)) = true then
    deductFromAvailable
  else 0

/-- What the panel balance gives, if it is still there. -/
def panelShare (db : Db) (owner : ℕ) (availableBalance remainingToDeduct : Units) : Units :=
  let deductFromBalance := min availableBalance remainingToDeduct
  if 0 < remainingToDeduct ∧ 0 < deductFromBalance ∧
      (db.users owner).any (fun u => decide (deductFromBalance ≤ u.balance)) = true then
    deductFromBalance
  else 0

/-- What a deduction writes. -/
def writeDeduction (db : Db) (d : HostingDeduction) (owner : ℕ)
    (frozenLogs : List HostingBalanceLog) (availableHostingBalance availableBalance : Units) :
    Db × List HostingEffect :=
  let (hostingLogs, remaining, effects) :=
    deductFrozenLogs owner (toUnits d.amount) frozenLogs db.hostingLogs
  let fromFrozen := toUnits d.amount - remaining
  let fromAvailable := availableShare db owner availableHostingBalance remaining
  let fromBalance := panelShare db owner availableBalance (remaining - fromAvailable)
  let db := { db with hostingLogs }.updateUser owner fun u =>
    { u with
        hostingBalance := u.hostingBalance - fromAvailable, balance := u.balance - fromBalance }
  let db :=
    if 0 < fromBalance then
      let balanceAfter := ((db.users owner).map (·.balance)).getD 0
      (db.createBalanceLog
        { id := 0, userId := owner, type := .hostingDeduction, amount := -fromBalance
          balanceBefore := roundUnits (balanceAfter + fromBalance), balanceAfter
          instanceId := some d.instanceId }).1
    else db
  let totalDeducted := fromFrozen + fromAvailable + fromBalance
  let db :=
    if 0 < totalDeducted then
      db.createHostingLog
        { id := 0, userId := owner, type := .deduction, amount := -totalDeducted, frozen := false
          relatedId := some d.instanceId, createdAt := d.now }
    else db
  (db, effects ++ [.fromAvailable owner fromAvailable])

/-! ### Withdrawing -/

/-- The least withdrawal, 10 yuan. -/
def minWithdrawal : ℚ := 10 * 100000000

/-- The fee of a withdrawal to the panel balance, 5 percent. -/
def withdrawalFee (amount : ℚ) : Cents := roundCurrency (amount / 1000000 * (5 / 100))

/-- What a withdrawal writes; `none` when it throws. -/
def writeWithdrawal (w : HostingWorld) (userId : ℕ) (amount : ℚ) (now : Time) :
    Option (Db × HostingWithdrawal) :=
  match w.db.users userId with
  | none => none
  | some user =>
      if (user.hostingBalance : ℚ) < amount then none
      else
        let actualAmount := amount - toUnits (withdrawalFee amount)
        let record : HostingWithdrawal :=
          { id := w.withdrawals.length + 1, userId, amount := roundCurrency (amount / 1000000)
            feeAmount := withdrawalFee amount
            actualAmount := roundCurrency (actualAmount / 1000000) }
        let newBalance := toColumn (user.balance + actualAmount)
        let db := w.db.updateUser userId fun u =>
          { u with hostingBalance := toColumn (u.hostingBalance - amount), balance := newBalance }
        let (db, _) := db.createBalanceLog
          { id := 0, userId, type := .hostingWithdraw, amount := toColumn actualAmount
            balanceBefore := user.balance, balanceAfter := newBalance, instanceId := none }
        some (db.createHostingLog
          { id := 0, userId, type := .withdraw, amount := toColumn (-amount), frozen := false
            relatedId := some record.id, createdAt := now }, record)

/-! ## Steps -/

namespace HostingWorld

/-- The next step of a transaction. -/
def step (w : HostingWorld) (pid : ℕ) : HostingStage → HostingWorld
  | .unfreezeSelect now =>
      match (w.db.hostingLogs.filter (·.isDue now)).map (·.id) with
      | [] => w.ended pid
      | id :: ids => w.goto pid (.unfreezeRead now (id :: ids))
  | .unfreezeRead now recordIds =>
      match w.db.hostingLogs.filter (fun log => recordIds.contains log.id && log.isDue now) with
      | [] => w.ended pid
      | log :: logs =>
          w.goto pid (.unfreezeLock now (log :: logs) ((log :: logs).map (·.userId)).eraseDups)
  | .unfreezeLock now lockedRecords [] => w.goto pid (.unfreezeWrite now lockedRecords)
  | .unfreezeLock now lockedRecords (userId :: userIds) =>
      match w.tryLock pid userId with
      | none => w.ended pid
      | some w => w.goto pid (.unfreezeLock now lockedRecords userIds)
  | .unfreezeWrite now lockedRecords =>
      match writeUnfrozen w.db now lockedRecords with
      | none => w.ended pid
      | some db => w.commit pid db (lockedRecords.map fun r => .unfrozen r.userId r.id r.amount)
  | .deductLock d =>
      match resolveHostedIncomeOwner w.db d.hostId (some d.instanceId) true with
      | none => w.ended pid
      | some owner =>
          match w.tryLock pid owner with
          | none => w.ended pid
          | some w => w.goto pid (.deductLogs d owner)
  | .deductLogs d owner =>
      let frozenLogs := w.db.hostingLogs.filter (·.isFrozenIncome owner d.instanceId)
      w.goto pid (.deductUser d owner
        (frozenLogs.mergeSort fun a b => decide (a.createdAt ≤ b.createdAt)))
  | .deductUser d owner frozenLogs =>
      w.goto pid (.deductBalance d owner frozenLogs
        (((w.db.users owner).map (·.hostingBalance)).getD 0))
  | .deductBalance d owner frozenLogs available =>
      w.goto pid (.deductWrite d owner frozenLogs available
        (((w.db.users owner).map (·.balance)).getD 0))
  | .deductWrite d owner frozenLogs available availableBalance =>
      let (db, effects) := writeDeduction w.db d owner frozenLogs available availableBalance
      w.commit pid db effects
  | .withdrawLock userId amount now =>
      match w.tryLock pid userId with
      | none => w.ended pid
      | some w => w.goto pid (.withdrawWrite userId amount now)
  | .withdrawWrite userId amount now =>
      match writeWithdrawal w userId amount now with
      | none => w.ended pid
      | some (db, record) =>
          { w with withdrawals := w.withdrawals ++ [record] }.commit pid db
            [.withdrawn userId (-toColumn (-amount))]

end HostingWorld

/-- What starts a transaction. -/
inductive HostingJob
  | unfreeze (now : Time)
  | deduct (d : HostingDeduction)
  | withdraw (userId : ℕ) (amount : ℚ) (now : Time)
deriving DecidableEq, Repr

def HostingJob.begin : HostingJob → Option HostingStage
  | .unfreeze now => some (.unfreezeSelect now)
  | .deduct d => some (.deductLock d)
  | .withdraw userId amount now =>
      if amount < minWithdrawal then none else some (.withdrawLock userId amount now)

inductive HostingEvent
  /-- a month or some hours are paid for: the income is frozen -/
  | credit (userId instanceId amount : ℕ) (now unfreezeAt : Time)
  | start (pid : ℕ) (job : HostingJob)
  | step (pid : ℕ)
  /-- the transaction is rolled back -/
  | fail (pid : ℕ)
  /-- whatever else moves the panel balance of a user -/
  | setBalance (userId : ℕ) (balance : Units)
deriving DecidableEq, Repr

def hostingStep (w : HostingWorld) : HostingEvent → Option HostingWorld
  | .credit userId instanceId amount now unfreezeAt =>
      some { w with
        db := w.db.createHostingLog
          { id := 0, userId, type := .income, amount, frozen := true, unfreezeAt := some unfreezeAt
            relatedId := some instanceId, createdAt := now }
        effects := w.effects ++ [.credited userId w.db.nextId amount] }
  | .start pid job =>
      match w.stages pid with
      | some _ => none
      | none => job.begin.map (w.goto pid)
  | .step pid => (w.stages pid).map (w.step pid)
  | .fail pid => some (w.ended pid)
  | .setBalance userId balance =>
      some { w with db := w.db.updateUser userId fun u => { u with balance } }

/-! ## The ledger -/

/-- What is frozen in the rows that `p` picks by their owner and their id. -/
def frozenSum (p : ℕ → ℕ → Bool) (logs : List HostingBalanceLog) : Units :=
  Keyed.total (fun log : HostingBalanceLog =>
    if log.frozen && p log.userId log.id then log.amount else 0) logs

namespace HostingEffect

/-- Income of the rows that `p` picks. -/
def income (p : ℕ → ℕ → Bool) : HostingEffect → Units
  | credited userId logId amount => if p userId logId then amount else 0
  | _ => 0

/-- What of it has become available. -/
def release (p : ℕ → ℕ → Bool) : HostingEffect → Units
  | unfrozen userId logId amount => if p userId logId then amount else 0
  | _ => 0

/-- What of it has been deducted while it was frozen. -/
def deducted (p : ℕ → ℕ → Bool) : HostingEffect → Units
  | fromFrozen userId logId amount => if p userId logId then amount else 0
  | _ => 0

/-- What has been deducted from the available balance of a user. -/
def deductedAvailable (u : ℕ) : HostingEffect → Units
  | fromAvailable userId amount => if userId = u then amount else 0
  | _ => 0

def withdrawnBy (u : ℕ) : HostingEffect → Units
  | withdrawn userId amount => if userId = u then amount else 0
  | _ => 0

end HostingEffect

/-- The rows of a user. -/
def ofUser (u : ℕ) : ℕ → ℕ → Bool := fun userId _ => userId == u

/-- The row with an id. -/
def ofLog (id : ℕ) : ℕ → ℕ → Bool := fun _ logId => logId == id

namespace HostingWorld

variable (w : HostingWorld)

def totalIncome (u : ℕ) : Units := Keyed.total (HostingEffect.income (ofUser u)) w.effects

/-- What has been deducted from a user, frozen or available. -/
def totalDeducted (u : ℕ) : Units :=
  Keyed.total (HostingEffect.deducted (ofUser u)) w.effects +
    Keyed.total (HostingEffect.deductedAvailable u) w.effects

def totalWithdrawn (u : ℕ) : Units := Keyed.total (HostingEffect.withdrawnBy u) w.effects

end HostingWorld

/-- The ledger of every owner agrees, and of no row is more credited than what no deduction has
taken. -/
structure HostingConserved (w : HostingWorld) : Prop where
  ledger : ∀ u user, w.db.users u = some user →
    user.hostingBalance + frozenSum (ofUser u) w.db.hostingLogs =
      w.totalIncome u - w.totalDeducted u - w.totalWithdrawn u
  rows : ∀ id, Keyed.total (HostingEffect.release (ofLog id)) w.effects ≤
    Keyed.total (HostingEffect.income (ofLog id)) w.effects -
      Keyed.total (HostingEffect.deducted (ofLog id)) w.effects

/-! ## Rows that are read before they are locked -/

/-- The step does not write what has been read too early, nor half a unit: the rows that the job
unfreezes still have the amounts that it has read, and a withdrawal does not end on half a unit. -/
def readsStand (w : HostingWorld) : HostingEvent → Bool
  | .step pid =>
      match w.stages pid with
      | some (.unfreezeWrite _ lockedRecords) =>
          lockedRecords.all fun record => w.db.hostingLogs.all fun log =>
            log.id != record.id || log.amount == record.amount
      | some (.withdrawWrite _ amount _) => decide (Int.fract amount ≠ 1 / 2)
      | _ => true
  | _ => true

/-! ## The books -/

/-- The rows, the balances and what has been credited and taken. -/
structure HostingBooks (db : Db) (effects : List HostingEffect) : Prop where
  ids : (db.hostingLogs.map (·.id)).Nodup
  fresh : ∀ log ∈ db.hostingLogs, log.id < db.nextId
  nonneg : ∀ log ∈ db.hostingLogs, log.frozen = true → 0 ≤ log.amount
  rows : ∀ p, Keyed.total (HostingEffect.income p) effects =
    Keyed.total (HostingEffect.release p) effects +
      Keyed.total (HostingEffect.deducted p) effects + frozenSum p db.hostingLogs
  balance : ∀ u user, db.users u = some user → user.hostingBalance =
    Keyed.total (HostingEffect.release (ofUser u)) effects -
      Keyed.total (HostingEffect.deductedAvailable u) effects -
        Keyed.total (HostingEffect.withdrawnBy u) effects

/-- The books agree, and nothing is running. -/
structure HostingStart (w : HostingWorld) : Prop where
  books : HostingBooks w.db w.effects
  stages : ∀ pid, w.stages pid = none

theorem HostingBooks.conserved {w : HostingWorld} (h : HostingBooks w.db w.effects) :
    HostingConserved w where
  ledger := by
    intro u user huser
    have hrows := h.rows (ofUser u)
    have hbalance := h.balance u user huser
    unfold HostingWorld.totalIncome HostingWorld.totalDeducted HostingWorld.totalWithdrawn
    linarith
  rows := by
    intro id
    have hrows := h.rows (ofLog id)
    have hfrozen : 0 ≤ frozenSum (ofLog id) w.db.hostingLogs := by
      refine Keyed.total_nonneg fun log hlog => ?_
      by_cases hpicked : (log.frozen && ofLog id log.userId log.id) = true
      · rw [if_pos hpicked]
        exact h.nonneg log hlog (Bool.and_eq_true _ _ ▸ hpicked).1
      · rw [if_neg hpicked]
    linarith

/-! ### One row of a deduction -/

/-- What a deduction from an owner leaves of the table. -/
structure TableMove (owner : ℕ) (table table' : List HostingBalanceLog) : Prop where
  ids : (table'.map (·.id)).Nodup
  rows : ∀ row' ∈ table', ∃ row ∈ table, row.id = row'.id ∧ row.userId = row'.userId ∧
    row.frozen = row'.frozen ∧ (0 ≤ row.amount → 0 ≤ row'.amount)
  others : ∀ row ∈ table, row.userId ≠ owner → row ∈ table'

section Table

variable {owner : ℕ} {table table' table'' : List HostingBalanceLog} {log : HostingBalanceLog}

theorem TableMove.refl (h : (table.map (·.id)).Nodup) : TableMove owner table table where
  ids := h
  rows := fun row hrow => ⟨row, hrow, rfl, rfl, rfl, id⟩
  others := fun _ hrow _ => hrow

theorem TableMove.trans (h : TableMove owner table table') (h' : TableMove owner table' table'') :
    TableMove owner table table'' where
  ids := h'.ids
  rows := by
    intro row'' hrow''
    obtain ⟨row', hrow', hid', huser', hfrozen', hamount'⟩ := h'.rows row'' hrow''
    obtain ⟨row, hrow, hid, huser, hfrozen, hamount⟩ := h.rows row' hrow'
    exact ⟨row, hrow, hid.trans hid', huser.trans huser', hfrozen.trans hfrozen',
      hamount' ∘ hamount⟩
  others := fun row hrow hne => h'.others row (h.others row hrow hne) hne

theorem deductRow_move (hids : (table.map (·.id)).Nodup) (hlog : log ∈ table)
    (howner : log.userId = owner) (d : Units) : TableMove owner table (deductRow log d table) := by
  have hsame : ∀ row ∈ table, row.id = log.id → row = log := fun row hrow hid =>
    List.inj_on_of_nodup_map hids hrow hlog hid
  unfold deductRow
  by_cases hwhole : d ≥ log.amount
  · rw [if_pos hwhole]
    refine ⟨Keyed.nodup_erase hids, fun row hrow => ?_, fun row hrow hne => ?_⟩
    · exact ⟨row, (Keyed.mem_erase.mp hrow).1, rfl, rfl, rfl, id⟩
    · refine Keyed.mem_erase.mpr ⟨hrow, fun hid => hne ?_⟩
      rw [hsame row hrow hid, howner]
  · rw [if_neg hwhole]
    refine ⟨?_, fun row' hrow' => ?_, fun row hrow hne => ?_⟩
    · have hkeys : (Keyed.modify HostingBalanceLog.id log.id
          (fun row => { row with amount := row.amount - d }) table).map (·.id) =
          table.map (·.id) := Keyed.map_key_modify fun _ => rfl
      rw [hkeys]
      exact hids
    · obtain ⟨row, hrow, rfl⟩ := Keyed.mem_modify.mp hrow'
      by_cases hid : row.id = log.id
      · obtain rfl := hsame row hrow hid
        rw [if_pos rfl]
        refine ⟨row, hrow, rfl, rfl, rfl, fun _ => ?_⟩
        exact Int.sub_nonneg_of_le (not_le.mp hwhole).le
      · rw [if_neg hid]
        exact ⟨row, hrow, rfl, rfl, rfl, id⟩
    · refine Keyed.mem_modify_of_ne hrow (fun hid => hne ?_) rfl
      rw [hsame row hrow hid, howner]

/-- What is frozen after one row of the loop. -/
theorem frozenSum_deductRow (p : ℕ → ℕ → Bool) (hids : (table.map (·.id)).Nodup)
    (hlog : log ∈ table) (hfrozen : log.frozen = true) {d : Units} (hle : d ≤ log.amount) :
    frozenSum p (deductRow log d table) =
      frozenSum p table - if p log.userId log.id then d else 0 := by
  unfold deductRow frozenSum
  by_cases hwhole : d ≥ log.amount
  · rw [if_pos hwhole, Keyed.total_erase hids hlog, hfrozen, Bool.true_and,
      le_antisymm hle hwhole]
  · rw [if_neg hwhole, Keyed.total_modify hids hlog, hfrozen, Bool.true_and]
    split_ifs
    · ring
    · ring

theorem mem_deductRow_of_ne {row : HostingBalanceLog} (hrow : row ∈ table) (hne : row.id ≠ log.id)
    (d : Units) : row ∈ deductRow log d table := by
  unfold deductRow
  split_ifs
  · exact Keyed.mem_erase.mpr ⟨hrow, hne⟩
  · exact Keyed.mem_modify_of_ne hrow hne rfl

/-- The loop takes from the frozen rows what it says it takes, and leaves those of others. -/
theorem deductFrozenLogs_spec {logs : List HostingBalanceLog} (remaining : Units)
    (hids : (table.map (·.id)).Nodup) (hlogs : (logs.map (·.id)).Nodup)
    (hmem : ∀ l ∈ logs, l ∈ table ∧ l.frozen = true ∧ l.userId = owner) :
    TableMove owner table (deductFrozenLogs owner remaining logs table).1 ∧
      (∀ p, frozenSum p (deductFrozenLogs owner remaining logs table).1 =
        frozenSum p table - Keyed.total (HostingEffect.deducted p)
          (deductFrozenLogs owner remaining logs table).2.2) ∧
      ∀ e ∈ (deductFrozenLogs owner remaining logs table).2.2,
        ∃ id amount, e = .fromFrozen owner id amount := by
  induction logs generalizing remaining table with
  | nil => exact ⟨.refl hids, fun p => (sub_zero _).symm, fun e he => by cases he⟩
  | cons log logs ih =>
    obtain ⟨hfirst, hrest⟩ := List.nodup_cons.mp hlogs
    obtain ⟨hlog, hfrozen, howner⟩ := hmem log List.mem_cons_self
    unfold deductFrozenLogs
    by_cases hdone : remaining ≤ 0
    · rw [if_pos hdone]
      exact ⟨.refl hids, fun p => (sub_zero _).symm, fun e he => by cases he⟩
    · rw [if_neg hdone]
      obtain ⟨d, hd⟩ : ∃ d, d = min log.amount remaining := ⟨_, rfl⟩
      have hmove := deductRow_move hids hlog howner d
      have hmem' : ∀ l ∈ logs, l ∈ deductRow log d table ∧ l.frozen = true ∧ l.userId = owner := by
        intro l hl
        obtain ⟨hin, hkind⟩ := hmem l (List.mem_cons_of_mem _ hl)
        refine ⟨mem_deductRow_of_ne hin (fun hid => hfirst ?_) d, hkind⟩
        exact List.mem_map.mpr ⟨l, hl, hid⟩
      obtain ⟨hrestMove, hsum, heffects⟩ := ih (remaining - d) hmove.ids hrest hmem'
      rw [← hd]
      refine ⟨hmove.trans hrestMove, fun p => ?_, fun e he => ?_⟩
      · have hone : HostingEffect.deducted p (.fromFrozen owner log.id d) =
            if p owner log.id then d else 0 := rfl
        show frozenSum p (deductFrozenLogs owner (remaining - d) logs (deductRow log d table)).1 =
          frozenSum p table - Keyed.total (HostingEffect.deducted p) (.fromFrozen owner log.id d ::
            (deductFrozenLogs owner (remaining - d) logs (deductRow log d table)).2.2)
        rw [hsum, frozenSum_deductRow p hids hlog hfrozen (hd ▸ min_le_left _ _), howner,
          Keyed.total_cons, hone]
        ring
      · rcases List.mem_cons.mp he with rfl | he
        · exact ⟨log.id, d, rfl⟩
        · exact heffects e he

end Table

/-! ### What is written keeps the books -/

section Books

variable {db db' : Db} {effects : List HostingEffect} {u : ℕ}

/-- The books only depend on the hosting rows and the hosting balances. -/
theorem HostingBooks.of_same (h : HostingBooks db effects)
    (hlogs : db'.hostingLogs = db.hostingLogs) (hnext : db.nextId ≤ db'.nextId)
    (husers : ∀ v user', db'.users v = some user' → ∃ user, db.users v = some user ∧
      user'.hostingBalance = user.hostingBalance) : HostingBooks db' effects where
  ids := hlogs ▸ h.ids
  fresh := fun log hlog => (h.fresh log (hlogs ▸ hlog)).trans_le hnext
  nonneg := fun log hlog => h.nonneg log (hlogs ▸ hlog)
  rows := hlogs ▸ h.rows
  balance := by
    intro v user' huser'
    obtain ⟨user, huser, hsame⟩ := husers v user' huser'
    rw [hsame, h.balance v user huser]

/-- The row of a user is rewritten, and his hosting balance stays. -/
theorem HostingBooks.updateUser (h : HostingBooks db effects) {f : User → User}
    (hf : ∀ user, (f user).hostingBalance = user.hostingBalance) :
    HostingBooks (db.updateUser u f) effects := by
  refine h.of_same rfl le_rfl fun v user' huser' => ?_
  have hupdated : Function.update db.users u ((db.users u).map f) v = some user' := huser'
  by_cases hv : v = u
  · rw [hv, Function.update_self, Option.map_eq_some_iff] at hupdated
    obtain ⟨user, huser, rfl⟩ := hupdated
    exact ⟨user, hv ▸ huser, hf user⟩
  · rw [Function.update_of_ne hv] at hupdated
    exact ⟨user', hupdated, rfl⟩

theorem frozenSum_append (p : ℕ → ℕ → Bool) (logs logs' : List HostingBalanceLog) :
    frozenSum p (logs ++ logs') = frozenSum p logs + frozenSum p logs' :=
  Keyed.total_append _ _ _

/-- A row of the hosting log is written; where it is frozen it is income. -/
theorem HostingBooks.createLog (h : HostingBooks db effects) (log : HostingBalanceLog)
    (hamount : log.frozen = true → 0 ≤ log.amount) :
    HostingBooks (db.createHostingLog log)
      (effects ++ if log.frozen then [.credited log.userId db.nextId log.amount] else []) := by
  have hfresh : ∀ row ∈ db.hostingLogs, row.id ≠ db.nextId := fun row hrow => (h.fresh row hrow).ne
  refine ⟨?_, ?_, ?_, ?_, ?_⟩
  · exact Keyed.nodup_append_singleton h.ids hfresh
  · exact Keyed.below_concat h.fresh (Nat.le_succ _) (Nat.lt_succ_self _)
  · intro row hrow hfrozen
    rcases List.mem_append.mp hrow with hrow | hrow
    · exact h.nonneg row hrow hfrozen
    · obtain rfl := List.mem_singleton.mp hrow
      exact hamount hfrozen
  · intro p
    have hrows := h.rows p
    show _ = _ + _ + frozenSum p (db.hostingLogs ++ [{ log with id := db.nextId }])
    rw [frozenSum_append]
    cases hfrozen : log.frozen with
    | false => simpa [frozenSum, hfrozen] using hrows
    | true =>
      simp only [if_true, Keyed.total_append, hrows]
      simp [frozenSum, HostingEffect.income, HostingEffect.release, HostingEffect.deducted,
        add_assoc]
  · intro v user huser
    have hbalance := h.balance v user huser
    cases hfrozen : log.frozen with
    | false => simpa using hbalance
    | true =>
      simpa [HostingEffect.release, HostingEffect.deductedAvailable, HostingEffect.withdrawnBy]
        using hbalance

/-- An amount leaves the hosting balance of a user. -/
theorem HostingBooks.spend (h : HostingBooks db effects) {f : User → User} {e : HostingEffect}
    {a : Units}
    (hrows : ∀ p, e.income p = 0 ∧ e.release p = 0 ∧ e.deducted p = 0)
    (hspent : ∀ v, e.deductedAvailable v + e.withdrawnBy v = if u = v then a else 0)
    (hf : ∀ user, db.users u = some user → (f user).hostingBalance = user.hostingBalance - a) :
    HostingBooks (db.updateUser u f) (effects ++ [e]) := by
  refine ⟨h.ids, h.fresh, h.nonneg, fun p => ?_, fun v user' huser' => ?_⟩
  · obtain ⟨hincome, hrelease, hdeducted⟩ := hrows p
    have hlogs : (db.updateUser u f).hostingLogs = db.hostingLogs := rfl
    simpa [hincome, hrelease, hdeducted, hlogs] using h.rows p
  · have hupdated : Function.update db.users u ((db.users u).map f) v = some user' := huser'
    have hnone : e.release (ofUser v) = 0 := (hrows (ofUser v)).2.1
    have hspent' := hspent v
    simp only [Keyed.total_append, Keyed.total_cons, Keyed.total_nil, hnone, add_zero]
    by_cases hv : u = v
    · subst hv
      rw [Function.update_self, Option.map_eq_some_iff] at hupdated
      obtain ⟨user, huser, rfl⟩ := hupdated
      have hbalance := h.balance u user huser
      rw [if_pos rfl] at hspent'
      rw [hf user huser]
      linarith
    · rw [Function.update_of_ne (Ne.symm hv)] at hupdated
      have hbalance := h.balance v user' hupdated
      rw [if_neg hv] at hspent'
      linarith

/-- Frozen rows are taken from. -/
theorem HostingBooks.takeFrozen (h : HostingBooks db effects) {owner : ℕ}
    {table : List HostingBalanceLog} {taken : List HostingEffect}
    (hmove : TableMove owner db.hostingLogs table)
    (hsum : ∀ p, frozenSum p table =
      frozenSum p db.hostingLogs - Keyed.total (HostingEffect.deducted p) taken)
    (htaken : ∀ e ∈ taken, ∃ id amount, e = .fromFrozen owner id amount) :
    HostingBooks { db with hostingLogs := table } (effects ++ taken) := by
  have hincome : ∀ p, Keyed.total (HostingEffect.income p) taken = 0 := fun p =>
    Keyed.total_eq_zero fun e he => by
      obtain ⟨id, amount, rfl⟩ := htaken e he
      rfl
  have hrelease : ∀ p, Keyed.total (HostingEffect.release p) taken = 0 := fun p =>
    Keyed.total_eq_zero fun e he => by
      obtain ⟨id, amount, rfl⟩ := htaken e he
      rfl
  have havailable : ∀ v, Keyed.total (HostingEffect.deductedAvailable v) taken = 0 := fun v =>
    Keyed.total_eq_zero fun e he => by
      obtain ⟨id, amount, rfl⟩ := htaken e he
      rfl
  have hwithdrawn : ∀ v, Keyed.total (HostingEffect.withdrawnBy v) taken = 0 := fun v =>
    Keyed.total_eq_zero fun e he => by
      obtain ⟨id, amount, rfl⟩ := htaken e he
      rfl
  refine ⟨hmove.ids, fun row' hrow' => ?_, fun row' hrow' hfrozen => ?_, fun p => ?_,
    fun v user huser => ?_⟩
  · obtain ⟨row, hrow, hid, -⟩ := hmove.rows row' hrow'
    exact hid ▸ h.fresh row hrow
  · obtain ⟨row, hrow, -, -, hsame, hamount⟩ := hmove.rows row' hrow'
    exact hamount (h.nonneg row hrow (hsame.trans hfrozen))
  · have hrows := h.rows p
    simp only [Keyed.total_append, hincome, hrelease, add_zero, hsum]
    linarith
  · have hbalance := h.balance v user huser
    simp only [Keyed.total_append, hrelease, havailable, hwithdrawn, add_zero]
    exact hbalance

/-- What is frozen after the rows that `q` picks, which were, are no longer. -/
theorem frozenSum_unfreeze (p : ℕ → ℕ → Bool) {q : HostingBalanceLog → Bool}
    (logs : List HostingBalanceLog) (hq : ∀ log ∈ logs, q log = true → log.frozen = true) :
    frozenSum p (logs.map fun log => if q log then { log with frozen := false } else log) =
      frozenSum p logs - Keyed.total
        (fun log : HostingBalanceLog => if p log.userId log.id then log.amount else 0)
        (logs.filter q) := by
  induction logs with
  | nil => rfl
  | cons log logs ih =>
    have hrest := ih fun l hl => hq l (List.mem_cons_of_mem _ hl)
    unfold frozenSum at hrest ⊢
    cases hpick : q log with
    | false =>
      rw [List.map_cons, Keyed.total_cons, Keyed.total_cons, hrest,
        List.filter_cons_of_neg (by simp [hpick]), hpick]
      simp only [Bool.false_eq_true, if_false]
      ring
    | true =>
      have hfrozen := hq log List.mem_cons_self hpick
      rw [List.map_cons, Keyed.total_cons, Keyed.total_cons, hrest,
        List.filter_cons_of_pos hpick, Keyed.total_cons, hpick, hfrozen]
      simp only [if_true, Bool.false_and, Bool.true_and, Bool.false_eq_true, if_false]
      ring

/-- Rows that have been read: their ids are known, and the rows that still have them are of the
same users. -/
structure ReadRows (db : Db) (records : List HostingBalanceLog) : Prop where
  ids : (records.map (·.id)).Nodup
  old : ∀ r ∈ records, r.id < db.nextId
  users : ∀ r ∈ records, ∀ row ∈ db.hostingLogs, row.id = r.id → row.userId = r.userId

/-- As many rows as have been read, and each is one of them: what is read of them is the same. -/
theorem ReadRows.perm {now : Time} {records : List HostingBalanceLog} (h : ReadRows db records)
    (hids : (db.hostingLogs.map (·.id)).Nodup)
    (hcount : (db.hostingLogs.filter (isUnfrozenBy now records)).length = records.length)
    (hstand : ∀ r ∈ records, ∀ row ∈ db.hostingLogs, row.id = r.id → row.amount = r.amount) :
    ((db.hostingLogs.filter (isUnfrozenBy now records)).map
      fun l => (l.id, l.userId, l.amount)).Perm (records.map fun l => (l.id, l.userId, l.amount)) := by
  have hsub : (db.hostingLogs.filter (isUnfrozenBy now records)).map
      (fun l => (l.id, l.userId, l.amount)) ⊆ records.map fun l => (l.id, l.userId, l.amount) := by
    intro x hx
    obtain ⟨row, hrow, rfl⟩ := List.mem_map.mp hx
    obtain ⟨hmem, hpick⟩ := List.mem_filter.mp hrow
    obtain ⟨hany, -⟩ := Bool.and_eq_true_iff.mp hpick
    obtain ⟨r, hr, hid⟩ := List.any_eq_true.mp hany
    have hid' : row.id = r.id := (beq_iff_eq.mp hid).symm
    refine List.mem_map.mpr ⟨r, hr, ?_⟩
    rw [hid', h.users r hr row hmem hid', hstand r hr row hmem hid']
  have hnodup : ((db.hostingLogs.filter (isUnfrozenBy now records)).map
      fun l => (l.id, l.userId, l.amount)).Nodup := by
    refine List.Nodup.of_map Prod.fst ?_
    rw [List.map_map]
    exact hids.sublist (List.Sublist.map _ List.filter_sublist)
  refine (List.subperm_of_subset hnodup hsub).perm_of_length_le ?_
  rw [List.length_map, List.length_map, hcount]

/-- What the job writes, when the rows have the amounts that it has read. -/
theorem HostingBooks.unfreeze {now : Time} {records : List HostingBalanceLog}
    (h : HostingBooks db effects) (hread : ReadRows db records)
    (hstand : ∀ r ∈ records, ∀ row ∈ db.hostingLogs, row.id = r.id → row.amount = r.amount)
    (hw : writeUnfrozen db now records = some db') :
    HostingBooks db' (effects ++ records.map fun r => .unfrozen r.userId r.id r.amount) := by
  unfold writeUnfrozen at hw
  split at hw
  · cases hw
  rename_i hcount
  split at hw
  swap
  · cases hw
  cases hw
  have hperm := hread.perm h.ids (not_not.mp hcount) hstand
  -- a sum over the rows is the sum over what was read
  have htotal : ∀ g : ℕ × ℕ × Units → Units,
      Keyed.total (fun l : HostingBalanceLog => g (l.id, l.userId, l.amount))
        (db.hostingLogs.filter (isUnfrozenBy now records)) =
      Keyed.total (fun l : HostingBalanceLog => g (l.id, l.userId, l.amount)) records := by
    intro g
    have hsum := (hperm.map g).sum_eq
    rw [List.map_map, List.map_map] at hsum
    exact hsum
  have hfrozen : ∀ log ∈ db.hostingLogs, isUnfrozenBy now records log = true →
      log.frozen = true := by
    intro log _ hpick
    exact (Bool.and_eq_true_iff.mp (Bool.and_eq_true_iff.mp hpick).2).1
  have hrelease : ∀ p, Keyed.total (HostingEffect.release p)
      (records.map fun r => .unfrozen r.userId r.id r.amount) =
        Keyed.total (fun r : HostingBalanceLog => if p r.userId r.id then r.amount else 0)
          records := by
    intro p
    simp only [Keyed.total, List.map_map]
    rfl
  have hnone : ∀ g : HostingEffect → Units, (∀ userId id amount, g (.unfrozen userId id amount) = 0) →
      Keyed.total g (records.map fun r => .unfrozen r.userId r.id r.amount) = 0 := by
    intro g hg
    refine Keyed.total_eq_zero fun e he => ?_
    obtain ⟨r, -, rfl⟩ := List.mem_map.mp he
    exact hg _ _ _
  refine ⟨?_, ?_, ?_, fun p => ?_, fun v user' huser' => ?_⟩
  · have hids : (db.hostingLogs.map fun log =>
        if isUnfrozenBy now records log then { log with frozen := false } else log).map (·.id) =
          db.hostingLogs.map (·.id) := by
      rw [List.map_map]
      refine List.map_congr_left fun log _ => ?_
      simp only [Function.comp_apply]
      split_ifs <;> rfl
    show (List.map _ (List.map _ _)).Nodup
    rw [hids]
    exact h.ids
  · intro row hrow
    obtain ⟨log, hlog, rfl⟩ := List.mem_map.mp hrow
    have := h.fresh log hlog
    split_ifs <;> exact this
  · intro row hrow hrowFrozen
    obtain ⟨log, hlog, rfl⟩ := List.mem_map.mp hrow
    split_ifs at hrowFrozen ⊢
    exact h.nonneg log hlog hrowFrozen
  · have hrows := h.rows p
    have hpicked := htotal fun x => if p x.2.1 x.1 then x.2.2 else 0
    simp only [Keyed.total_append, hrelease, hnone (HostingEffect.income p) fun _ _ _ => rfl,
      hnone (HostingEffect.deducted p) fun _ _ _ => rfl, add_zero,
      frozenSum_unfreeze p _ hfrozen, hpicked]
    linarith
  · obtain ⟨user, huser, rfl⟩ := Option.map_eq_some_iff.mp huser'
    have hbalance := h.balance v user huser
    have hfilter : Keyed.total HostingBalanceLog.amount (records.filter (·.userId == v)) =
        Keyed.total (fun r : HostingBalanceLog => if ofUser v r.userId r.id then r.amount else 0)
          records := Keyed.total_filter _ records
    show user.hostingBalance + Keyed.total HostingBalanceLog.amount _ = _
    rw [hfilter, Keyed.total_append, Keyed.total_append, Keyed.total_append, hrelease,
      hnone (HostingEffect.deductedAvailable v) fun _ _ _ => rfl,
      hnone (HostingEffect.withdrawnBy v) fun _ _ _ => rfl]
    linarith

/-- A row of the hosting log that is not frozen is no income. -/
theorem HostingBooks.createEntry (h : HostingBooks db effects) (log : HostingBalanceLog)
    (hfrozen : log.frozen = false) : HostingBooks (db.createHostingLog log) effects := by
  have hcreated := h.createLog log fun ht => absurd (ht.symm.trans hfrozen) (by decide)
  rwa [hfrozen, if_neg (by decide), List.append_nil] at hcreated

theorem HostingBooks.createBalanceLog (h : HostingBooks db effects) (log : BalanceLog) :
    HostingBooks (db.createBalanceLog log).1 effects :=
  h.of_same rfl (Nat.le_succ _) fun _ user huser => ⟨user, huser, rfl⟩

/-- Rows of an owner that are in the table, and frozen. -/
structure FrozenRows (db : Db) (owner : ℕ) (logs : List HostingBalanceLog) : Prop where
  ids : (logs.map (·.id)).Nodup
  mem : ∀ l ∈ logs, l ∈ db.hostingLogs ∧ l.frozen = true ∧ l.userId = owner

/-- What a deduction writes, when the rows it has read are as they were. -/
theorem HostingBooks.deduct (h : HostingBooks db effects) {owner : ℕ}
    {frozenLogs : List HostingBalanceLog} (hlogs : FrozenRows db owner frozenLogs)
    (d : HostingDeduction) (availableHostingBalance availableBalance : Units) :
    HostingBooks
      (writeDeduction db d owner frozenLogs availableHostingBalance availableBalance).1
      (effects ++
        (writeDeduction db d owner frozenLogs availableHostingBalance availableBalance).2) := by
  obtain ⟨hmove, hsum, htaken⟩ := deductFrozenLogs_spec (toUnits d.amount) h.ids hlogs.ids hlogs.mem
  unfold writeDeduction
  generalize deductFrozenLogs owner (toUnits d.amount) frozenLogs db.hostingLogs = loop
    at hmove hsum htaken ⊢
  obtain ⟨table, remaining, taken⟩ := loop
  dsimp only at hmove hsum htaken ⊢
  generalize hshare : availableShare db owner availableHostingBalance remaining = fromAvailable
  have hspent := (h.takeFrozen hmove hsum htaken).spend (u := owner)
    (e := .fromAvailable owner fromAvailable) (a := fromAvailable)
    (f := fun u => { u with
      hostingBalance := u.hostingBalance - fromAvailable
      balance := u.balance - panelShare db owner availableBalance (remaining - fromAvailable) })
    (fun _ => ⟨rfl, rfl, rfl⟩) (fun _ => add_zero _) (fun _ _ => rfl)
  rw [List.append_assoc] at hspent
  split
  · split
    · exact (hspent.createBalanceLog _).createEntry _ rfl
    · exact hspent.createEntry _ rfl
  · split
    · exact hspent.createBalanceLog _
    · exact hspent

/-- What a withdrawal writes, unless it ends on half a unit. -/
theorem HostingBooks.withdraw {w : HostingWorld} {userId : ℕ} {amount : ℚ} {now : Time}
    {record : HostingWithdrawal} (h : HostingBooks w.db effects) (hpos : 0 ≤ amount)
    (hhalf : Int.fract amount ≠ 1 / 2)
    (hw : writeWithdrawal w userId amount now = some (db', record)) :
    HostingBooks db' (effects ++ [.withdrawn userId (-toColumn (-amount))]) := by
  unfold writeWithdrawal at hw
  split at hw
  · cases hw
  rename_i user huser
  split at hw
  · cases hw
  rename_i henough
  have hcolumn : toColumn ((user.hostingBalance : ℚ) - amount) =
      user.hostingBalance - -toColumn (-amount) := by
    unfold toColumn
    rw [Rounding.halfAway_neg, neg_neg]
    refine Rounding.halfAway_int_sub hpos (not_lt.mp henough) ?_
    exact fun heq => hhalf ((Rounding.halfAway_sub_self_iff hpos).mp heq)
  have hspent := h.spend (u := userId) (e := .withdrawn userId (-toColumn (-amount)))
    (a := -toColumn (-amount))
    (f := fun u => { u with
      hostingBalance := toColumn (u.hostingBalance - amount)
      balance := toColumn (user.balance + (amount - toUnits (withdrawalFee amount))) })
    (fun _ => ⟨rfl, rfl, rfl⟩) (fun _ => zero_add _) (by
      intro user' huser'
      obtain rfl := Option.some.inj (huser.symm.trans huser')
      exact hcolumn)
  obtain ⟨rfl, -⟩ := Prod.mk.inj (Option.some.inj hw)
  exact (hspent.createBalanceLog _).createEntry _ rfl

end Books

/-! ## What a transaction relies on -/

/-- A change of the hosting rows: they stay of their users, new ones have new ids, and the rows of
the users in `free` are left alone. -/
structure LogsMove (free : ℕ → Prop) (db db' : Db) : Prop where
  nextId : db.nextId ≤ db'.nextId
  users : ∀ row' ∈ db'.hostingLogs, row'.id < db.nextId →
    ∃ row ∈ db.hostingLogs, row.id = row'.id ∧ row.userId = row'.userId
  kept : ∀ row ∈ db.hostingLogs, free row.userId → row ∈ db'.hostingLogs

/-- What a transaction has read still stands where it holds the lock, and the rows that the job
has read are at least of the users whose locks it takes. -/
def HostingWorld.StageOk (w : HostingWorld) (pid : ℕ) : HostingStage → Prop
  | .unfreezeSelect _ | .unfreezeRead _ _ | .deductLock _ => True
  | .unfreezeLock _ records userIds =>
      ReadRows w.db records ∧ ∀ r ∈ records, r.userId ∈ userIds ∨ w.locks r.userId = some pid
  | .unfreezeWrite _ records =>
      ReadRows w.db records ∧ ∀ r ∈ records, w.locks r.userId = some pid
  | .deductLogs _ owner => w.locks owner = some pid
  | .deductUser _ owner frozenLogs | .deductBalance _ owner frozenLogs _
  | .deductWrite _ owner frozenLogs _ _ =>
      w.locks owner = some pid ∧ FrozenRows w.db owner frozenLogs
  | .withdrawLock _ amount _ | .withdrawWrite _ amount _ => 0 ≤ amount

structure HostingInv (w : HostingWorld) : Prop where
  books : HostingBooks w.db w.effects
  stages : ∀ pid stage, w.stages pid = some stage → w.StageOk pid stage

section Moves

variable {free free' : ℕ → Prop} {db db' : Db} {records frozenLogs : List HostingBalanceLog}
  {owner : ℕ}

theorem LogsMove.of_logs (hlogs : db'.hostingLogs = db.hostingLogs)
    (hnext : db.nextId ≤ db'.nextId) : LogsMove free db db' where
  nextId := hnext
  users := fun row hrow _ => ⟨row, hlogs ▸ hrow, rfl, rfl⟩
  kept := fun _ hrow _ => hlogs ▸ hrow

theorem LogsMove.mono (h : LogsMove free db db') (hfree : ∀ u, free' u → free u) :
    LogsMove free' db db' where
  nextId := h.nextId
  users := h.users
  kept := fun row hrow hu => h.kept row hrow (hfree _ hu)

/-- A row more. -/
theorem LogsMove.createLog (h : LogsMove free db db') (log : HostingBalanceLog) :
    LogsMove free db (db'.createHostingLog log) where
  nextId := h.nextId.trans (Nat.le_succ _)
  users := by
    intro row' hrow' hold
    rcases List.mem_append.mp hrow' with hrow' | hrow'
    · exact h.users row' hrow' hold
    · rw [List.mem_singleton.mp hrow'] at hold
      exact absurd hold (Nat.not_lt.mpr h.nextId)
  kept := fun row hrow hu => List.mem_append_left _ (h.kept row hrow hu)

theorem ReadRows.move (h : ReadRows db records) (hmove : LogsMove free db db') :
    ReadRows db' records where
  ids := h.ids
  old := fun r hr => (h.old r hr).trans_le hmove.nextId
  users := by
    intro r hr row' hrow' hid
    obtain ⟨row, hrow, hid', huser⟩ := hmove.users row' hrow' (hid ▸ h.old r hr)
    exact huser ▸ h.users r hr row hrow (hid'.trans hid)

theorem FrozenRows.move (h : FrozenRows db owner frozenLogs) (hmove : LogsMove free db db')
    (hfree : free owner) : FrozenRows db' owner frozenLogs where
  ids := h.ids
  mem := by
    intro l hl
    obtain ⟨hmem, hfrozen, huser⟩ := h.mem l hl
    exact ⟨hmove.kept l hmem (huser ▸ hfree), hfrozen, huser⟩

/-- Whoever holds the lock of a user is not disturbed. -/
theorem HostingWorld.StageOk.move {w w' : HostingWorld} {pid : ℕ} {stage : HostingStage}
    (h : w.StageOk pid stage) (hlocks : ∀ u, w.locks u = some pid → w'.locks u = some pid)
    (hmove : LogsMove (fun u => w.locks u = some pid) w.db w'.db) : w'.StageOk pid stage := by
  cases stage with
  | unfreezeSelect now => trivial
  | unfreezeRead now recordIds => trivial
  | unfreezeLock now records userIds =>
    exact ⟨h.1.move hmove, fun r hr => (h.2 r hr).imp_right (hlocks _)⟩
  | unfreezeWrite now records => exact ⟨h.1.move hmove, fun r hr => hlocks _ (h.2 r hr)⟩
  | deductLock d => trivial
  | deductLogs d owner => exact hlocks _ h
  | deductUser d owner frozenLogs => exact ⟨hlocks _ h.1, h.2.move hmove h.1⟩
  | deductBalance d owner frozenLogs available => exact ⟨hlocks _ h.1, h.2.move hmove h.1⟩
  | deductWrite d owner frozenLogs available availableBalance =>
    exact ⟨hlocks _ h.1, h.2.move hmove h.1⟩
  | withdrawLock userId amount now => exact h
  | withdrawWrite userId amount now => exact h

end Moves

/-! ## Steps keep the books -/

section Invariant

variable {w w' : HostingWorld} {pid : ℕ} {stage : HostingStage} {u : ℕ}

theorem HostingInv.ended (h : HostingInv w) (pid : ℕ) : HostingInv (w.ended pid) where
  books := h.books
  stages := by
    intro q stage hstage
    have hupdated : Function.update w.stages pid none q = some stage := hstage
    by_cases hq : q = pid
    · rw [hq, Function.update_self] at hupdated
      cases hupdated
    · rw [Function.update_of_ne hq] at hupdated
      refine (h.stages q stage hupdated).move (fun v hv => ?_) (.of_logs rfl le_rfl)
      show (if w.locks v = some pid then none else w.locks v) = some q
      rw [hv, if_neg fun he => hq (Option.some.inj he)]

theorem HostingInv.goto (h : HostingInv w) (hok : w.StageOk pid stage) :
    HostingInv (w.goto pid stage) where
  books := h.books
  stages := by
    intro q stage' hstage
    have hupdated : Function.update w.stages pid (some stage) q = some stage' := hstage
    have hok' : w.StageOk q stage' := by
      by_cases hq : q = pid
      · rw [hq, Function.update_self] at hupdated
        obtain rfl := Option.some.inj hupdated
        exact hq ▸ hok
      · rw [Function.update_of_ne hq] at hupdated
        exact h.stages q stage' hupdated
    exact hok'.move (fun _ hv => hv) (.of_logs rfl le_rfl)

/-- A lock that is taken was free, or was held already. -/
theorem HostingWorld.tryLock_spec (hlock : w.tryLock pid u = some w') :
    w'.db = w.db ∧ w'.effects = w.effects ∧ w'.stages = w.stages ∧ w'.locks u = some pid ∧
      ∀ v q, w.locks v = some q → w'.locks v = some q := by
  unfold HostingWorld.tryLock at hlock
  split at hlock
  swap
  · cases hlock
  rename_i hfree
  cases hlock
  refine ⟨rfl, rfl, rfl, Function.update_self _ _ _, fun v q hv => ?_⟩
  by_cases hsame : v = u
  · rw [hsame] at hv ⊢
    rcases hfree with hnone | hown
    · rw [hnone] at hv
      cases hv
    · rw [← hv, hown]
      exact Function.update_self _ _ _
  · exact (Function.update_of_ne hsame _ _).trans hv

theorem HostingInv.tryLock (h : HostingInv w) (hlock : w.tryLock pid u = some w') :
    HostingInv w' := by
  obtain ⟨hdb, heffects, hstages, -, hlocks⟩ := HostingWorld.tryLock_spec hlock
  refine ⟨by rw [hdb, heffects]; exact h.books, fun q stage hstage => ?_⟩
  rw [hstages] at hstage
  exact (h.stages q stage hstage).move (fun v hv => hlocks v q hv)
    (.of_logs (by rw [hdb]) (by rw [hdb]))

/-- A transaction commits: it has touched the rows of users whose locks it holds. -/
theorem HostingInv.commit (h : HostingInv w) {db' : Db} {effects : List HostingEffect}
    (hbooks : HostingBooks db' (w.effects ++ effects))
    (hmove : LogsMove (fun v => w.locks v ≠ some pid) w.db db') :
    HostingInv (w.commit pid db' effects) where
  books := hbooks
  stages := by
    intro q stage hstage
    have hupdated : Function.update w.stages pid none q = some stage := hstage
    by_cases hq : q = pid
    · rw [hq, Function.update_self] at hupdated
      cases hupdated
    · rw [Function.update_of_ne hq] at hupdated
      refine (h.stages q stage hupdated).move (fun v hv => ?_) (hmove.mono fun v hv => ?_)
      · show (if w.locks v = some pid then none else w.locks v) = some q
        rw [hv, if_neg fun he => hq (Option.some.inj he)]
      · rw [hv]
        exact fun he => hq (Option.some.inj he)

/-- The rows that are unfrozen are of users whose locks are held. -/
theorem logsMove_unfreeze {db db' : Db} {now : Time} {records : List HostingBalanceLog}
    {free : ℕ → Prop} (hread : ReadRows db records) (hfree : ∀ r ∈ records, ¬ free r.userId)
    (hw : writeUnfrozen db now records = some db') : LogsMove free db db' := by
  unfold writeUnfrozen at hw
  split at hw
  · cases hw
  split at hw
  swap
  · cases hw
  cases hw
  refine ⟨le_rfl, fun row' hrow' _ => ?_, fun row hrow hu => ?_⟩
  · obtain ⟨row, hrow, rfl⟩ := List.mem_map.mp hrow'
    refine ⟨row, hrow, ?_⟩
    split_ifs
    · exact ⟨rfl, rfl⟩
    · exact ⟨rfl, rfl⟩
  · refine List.mem_map.mpr ⟨row, hrow, if_neg fun hpick => ?_⟩
    obtain ⟨hany, -⟩ := Bool.and_eq_true_iff.mp hpick
    obtain ⟨r, hr, hid⟩ := List.any_eq_true.mp hany
    have huser := hread.users r hr row hrow (beq_iff_eq.mp hid).symm
    exact hfree r hr (huser ▸ hu)

theorem logsMove_deduct {db : Db} {owner : ℕ} {frozenLogs : List HostingBalanceLog}
    {free : ℕ → Prop} (hids : (db.hostingLogs.map (·.id)).Nodup)
    (hlogs : FrozenRows db owner frozenLogs) (hfree : ¬ free owner) (d : HostingDeduction)
    (availableHostingBalance availableBalance : Units) :
    LogsMove free db
      (writeDeduction db d owner frozenLogs availableHostingBalance availableBalance).1 := by
  obtain ⟨hmove, -, -⟩ := deductFrozenLogs_spec (toUnits d.amount) hids hlogs.ids hlogs.mem
  unfold writeDeduction
  generalize deductFrozenLogs owner (toUnits d.amount) frozenLogs db.hostingLogs = loop at hmove ⊢
  obtain ⟨table, remaining, taken⟩ := loop
  dsimp only at hmove ⊢
  have htable : ∀ db₁ : Db, db₁.hostingLogs = table → db.nextId ≤ db₁.nextId →
      LogsMove free db db₁ := by
    intro db₁ hdb₁ hnext
    refine ⟨hnext, fun row' hrow' _ => ?_, fun row hrow hu => ?_⟩
    · obtain ⟨row, hrow, hid, huser, -⟩ := hmove.rows row' (hdb₁ ▸ hrow')
      exact ⟨row, hrow, hid, huser⟩
    · rw [hdb₁]
      exact hmove.others row hrow fun he => hfree (he ▸ hu)
  split
  · refine LogsMove.createLog (htable _ ?_ ?_) _
    · split
      · rfl
      · rfl
    · split
      · exact Nat.le_succ _
      · exact le_rfl
  · refine htable _ ?_ ?_
    · split
      · rfl
      · rfl
    · split
      · exact Nat.le_succ _
      · exact le_rfl

theorem logsMove_withdraw {userId : ℕ} {amount : ℚ} {now : Time} {db' : Db}
    {record : HostingWithdrawal} {free : ℕ → Prop}
    (hw : writeWithdrawal w userId amount now = some (db', record)) : LogsMove free w.db db' := by
  unfold writeWithdrawal at hw
  split at hw
  · cases hw
  split at hw
  · cases hw
  obtain ⟨hdb, -⟩ := Prod.mk.inj (Option.some.inj hw)
  rw [← hdb]
  refine LogsMove.createLog (LogsMove.of_logs ?_ ?_) _
  · rfl
  · exact Nat.le_succ _

/-- The rows that are read are known. -/
theorem HostingBooks.readRows {db : Db} {effects : List HostingEffect} (h : HostingBooks db effects)
    (q : HostingBalanceLog → Bool) : ReadRows db (db.hostingLogs.filter q) where
  ids := h.ids.sublist (List.Sublist.map _ List.filter_sublist)
  old := fun r hr => h.fresh r (List.mem_of_mem_filter hr)
  users := by
    intro r hr row hrow hid
    rw [List.inj_on_of_nodup_map h.ids hrow (List.mem_of_mem_filter hr) hid]

theorem HostingBooks.frozenRows {db : Db} {effects : List HostingEffect}
    (h : HostingBooks db effects) (owner instanceId : ℕ) :
    FrozenRows db owner ((db.hostingLogs.filter (·.isFrozenIncome owner instanceId)).mergeSort
      fun a b => decide (a.createdAt ≤ b.createdAt)) where
  ids := by
    refine ((List.mergeSort_perm _ _).map _).nodup_iff.mpr ?_
    exact h.ids.sublist (List.Sublist.map _ List.filter_sublist)
  mem := by
    intro l hl
    obtain ⟨hmem, hkind⟩ := List.mem_filter.mp (List.mem_mergeSort.mp hl)
    simp only [HostingBalanceLog.isFrozenIncome, Bool.and_eq_true, beq_iff_eq] at hkind
    exact ⟨hmem, hkind.2, hkind.1.1.1⟩

/-- One step of a transaction. -/
theorem HostingInv.step (h : HostingInv w) (hok : w.StageOk pid stage)
    (hstand : readsStand w (.step pid) = true) (hstage : w.stages pid = some stage) :
    HostingInv (w.step pid stage) := by
  simp only [readsStand, hstage] at hstand
  cases stage with
  | unfreezeSelect now =>
    simp only [HostingWorld.step]
    split
    · exact h.ended pid
    · exact h.goto trivial
  | unfreezeRead now recordIds =>
    simp only [HostingWorld.step]
    split
    · exact h.ended pid
    · rename_i log logs hlogs
      refine h.goto ⟨hlogs ▸ h.books.readRows _, fun r hr => .inl ?_⟩
      exact List.mem_eraseDups.mpr (List.mem_map_of_mem hr)
  | unfreezeLock now records userIds =>
    cases userIds with
    | nil =>
      refine h.goto ⟨hok.1, fun r hr => (hok.2 r hr).resolve_left ?_⟩
      exact List.not_mem_nil
    | cons userId userIds =>
      simp only [HostingWorld.step]
      split
      · exact h.ended pid
      · rename_i w' hlock
        obtain ⟨hdb, -, -, hheld, hlocks⟩ := HostingWorld.tryLock_spec hlock
        refine (h.tryLock hlock).goto ⟨hdb ▸ hok.1, fun r hr => ?_⟩
        rcases hok.2 r hr with hin | hown
        · rcases List.mem_cons.mp hin with heq | hin
          · exact .inr (heq ▸ hheld)
          · exact .inl hin
        · exact .inr (hlocks _ _ hown)
  | unfreezeWrite now records =>
    simp only [HostingWorld.step]
    split
    · exact h.ended pid
    · rename_i db' hw
      refine h.commit (h.books.unfreeze hok.1 ?_ hw) (logsMove_unfreeze hok.1 ?_ hw)
      · intro r hr row hrow hid
        have hamount := List.all_eq_true.mp (List.all_eq_true.mp hstand r hr) row hrow
        simpa [hid] using hamount
      · intro r hr hfree
        exact hfree (hok.2 r hr)
  | deductLock d =>
    simp only [HostingWorld.step]
    split
    · exact h.ended pid
    · split
      · exact h.ended pid
      · rename_i w' hlock
        exact (h.tryLock hlock).goto (HostingWorld.tryLock_spec hlock).2.2.2.1
  | deductLogs d owner => exact h.goto ⟨hok, h.books.frozenRows owner d.instanceId⟩
  | deductUser d owner frozenLogs => exact h.goto hok
  | deductBalance d owner frozenLogs available => exact h.goto hok
  | deductWrite d owner frozenLogs available availableBalance =>
    refine h.commit (h.books.deduct hok.2 d available availableBalance) ?_
    exact logsMove_deduct h.books.ids hok.2 (fun hfree => hfree hok.1) d available availableBalance
  | withdrawLock userId amount now =>
    simp only [HostingWorld.step]
    split
    · exact h.ended pid
    · rename_i w' hlock
      exact (h.tryLock hlock).goto hok
  | withdrawWrite userId amount now =>
    simp only [HostingWorld.step]
    split
    · exact h.ended pid
    · rename_i db' record hw
      have hinv : HostingInv { w with withdrawals := w.withdrawals ++ [record] } :=
        ⟨h.books, fun q stage hq => (h.stages q stage hq).move (fun _ hv => hv)
          (.of_logs rfl le_rfl)⟩
      have hmove : LogsMove (fun v => w.locks v ≠ some pid) w.db db' := logsMove_withdraw hw
      exact hinv.commit (h.books.withdraw hok (of_decide_eq_true hstand) hw) hmove

theorem hostingInv_step {e : HostingEvent} (h : HostingInv w) (hok : readsStand w e = true)
    (hs : hostingStep w e = some w') : HostingInv w' := by
  cases e with
  | credit userId instanceId amount now unfreezeAt =>
    obtain rfl := Option.some.inj hs
    refine ⟨?_, fun q stage hq => (h.stages q stage hq).move (fun _ hv => hv) ?_⟩
    · exact h.books.createLog _ fun _ => Int.natCast_nonneg amount
    · exact (LogsMove.of_logs rfl le_rfl).createLog _
  | start pid job =>
    simp only [hostingStep] at hs
    split at hs
    · cases hs
    · obtain ⟨stage, hbegin, rfl⟩ := Option.map_eq_some_iff.mp hs
      refine h.goto ?_
      cases job with
      | unfreeze now =>
        obtain rfl := Option.some.inj hbegin
        trivial
      | deduct d =>
        obtain rfl := Option.some.inj hbegin
        trivial
      | withdraw userId amount now =>
        simp only [HostingJob.begin] at hbegin
        split at hbegin
        · cases hbegin
        · rename_i hmin
          obtain rfl := Option.some.inj hbegin
          have hleast : (0 : ℚ) ≤ minWithdrawal := by
            unfold minWithdrawal
            norm_num
          exact hleast.trans (not_lt.mp hmin)
  | step pid =>
    obtain ⟨stage, hstage, rfl⟩ := Option.map_eq_some_iff.mp hs
    exact h.step (h.stages pid stage hstage) hok hstage
  | fail pid =>
    obtain rfl := Option.some.inj hs
    exact h.ended pid
  | setBalance userId balance =>
    obtain rfl := Option.some.inj hs
    refine ⟨h.books.updateUser fun _ => rfl, fun q stage hq => ?_⟩
    exact (h.stages q stage hq).move (fun _ hv => hv) (.of_logs rfl le_rfl)

/-- In every run that writes nothing read too early, and no half unit, the ledger of every owner
is conserved. -/
theorem hosting_conserved {w₀ : HostingWorld} (hstart : HostingStart w₀)
    (hrun : Machine.Reach hostingStep (readsStand · ·) w₀ w) : HostingConserved w := by
  have h₀ : HostingInv w₀ := by
    refine ⟨hstart.books, fun pid stage hstage => ?_⟩
    rw [hstart.stages] at hstage
    cases hstage
  have hinv : HostingInv w :=
    hrun.invariant h₀ fun hinv hok hs => hostingInv_step hinv hok hs
  exact hinv.books.conserved

end Invariant

/-- An owner with one host. -/
def sampleHosting : HostingWorld where
  db := {
    users := fun userId => if userId = 7 then some { role := .user, balance := 0 } else none
    hosts := fun hostId => if hostId = 1 then some { userId := 7 } else none
    instances := fun _ => none }

/-- 5 yuan of the income of instance 5 are taken back. -/
def sampleDeduction : HostingDeduction := { hostId := 1, amount := 500, instanceId := 5, now := 150 }

/-- 30 yuan of income, due at 100. -/
def sampleCredit : HostingEvent := .credit 7 5 3000000000 0 100

theorem sampleHosting_start : HostingStart sampleHosting where
  books := by
    refine ⟨List.nodup_nil, fun _ h => (by cases h), fun _ h => (by cases h), fun _ => rfl, ?_⟩
    intro u user huser
    simp only [sampleHosting] at huser
    split at huser
    · obtain rfl := Option.some.inj huser
      rfl
    · cases huser
  stages := fun _ => rfl

/-- 5 of the 30 yuan are taken back before the job has read the row, and 10 yuan are withdrawn. -/
theorem hosting_conserved_owner :
    ∃ w, Machine.Reach hostingStep (readsStand · ·) sampleHosting w ∧
      (w.db.users 7).map (·.hostingBalance) = some 1500000000 ∧ HostingConserved w := by
  have hexec : (Machine.exec (Machine.guarded hostingStep readsStand) sampleHosting
      [sampleCredit, .start 1 (.deduct sampleDeduction), .step 1, .step 1, .step 1, .step 1,
        .step 1, .start 2 (.unfreeze 200), .step 2, .step 2, .step 2, .step 2, .step 2,
        .start 3 (.withdraw 7 1000000000 300), .step 3, .step 3]).map
        (fun w => (w.db.users 7).map (·.hostingBalance)) = some (some 1500000000) := by
    decide +kernel
  obtain ⟨w, hw, hbalance⟩ := Option.map_eq_some_iff.mp hexec
  have hrun := Machine.reach_of_exec_guarded hw
  exact ⟨w, hrun, hbalance, hosting_conserved sampleHosting_start hrun⟩

/-- The job has read the row before the 5 yuan are taken back, and credits all 30. -/
theorem deducted_income_unfrozen :
    ∃ w, Machine.Reach hostingStep Machine.free sampleHosting w ∧
      (w.db.users 7).map (·.hostingBalance) = some 3000000000 ∧ ¬ HostingConserved w := by
  have hexec : (Machine.exec hostingStep sampleHosting
      [sampleCredit, .start 2 (.unfreeze 200), .step 2, .step 2,
        .start 1 (.deduct sampleDeduction), .step 1, .step 1, .step 1, .step 1, .step 1,
        .step 2, .step 2, .step 2]).map
        (fun w => ((w.db.users 7).map (·.hostingBalance),
          Keyed.total (HostingEffect.release (ofLog 1)) w.effects,
          Keyed.total (HostingEffect.income (ofLog 1)) w.effects,
          Keyed.total (HostingEffect.deducted (ofLog 1)) w.effects))
      = some (some 3000000000, 3000000000, 3000000000, 500000000) := by decide +kernel
  obtain ⟨w, hw, hvalues⟩ := Option.map_eq_some_iff.mp hexec
  simp only [Prod.mk.injEq] at hvalues
  obtain ⟨hbalance, hrelease, hincome, hdeducted⟩ := hvalues
  refine ⟨w, Machine.reach_of_exec hw, hbalance, fun h => ?_⟩
  have hrows := h.rows 1
  rw [hrelease, hincome, hdeducted] at hrows
  exact absurd hrows (by decide)

end Incudal
