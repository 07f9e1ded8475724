/-
# `BalanceRuns` — the balance logs of a user, over any interleaving

Three operations change a balance.  The settlement of a destroyed instance
takes the lock of the balance, reads it, adds the refund to whatever the row
holds by then, and logs what it has read with the sum to the cent.  A renewal
and a completed recharge take no such lock: they change the row first and log
from what they find in it afterwards, a renewal again to the cent.

A transaction that has changed the row holds its row lock until it ends, so
that logs are committed in the order of the changes.  They lead from the first
balance to the present one as long as no refund is added to a balance that has
moved since it was read, and refunds and renewals meet a balance of whole cents
(`balance_logs_linked`).  One change is logged as it happened just in that case
(`changed_exact_iff`).
-/
import Incudal.Store
import Incudal.Lib.Chained
import Incudal.Lib.Machine

namespace Incudal

/-! ## Sessions -/

/-- `settleUserDestroyBilling`, `performRenewal` and `completeRecharge`, with the amounts that
they have come to. -/
inductive BalanceOperation
  | refund (refundAmount : Cents)
  | renewal (finalAmount : Cents)
  | recharge (actualAmount : Cents)
deriving DecidableEq, Repr

/-- What is added to the balance. -/
def BalanceOperation.increment : BalanceOperation → Units
  | .refund refundAmount => toUnits refundAmount
  | .renewal finalAmount => -toUnits finalAmount
  | .recharge actualAmount => toUnits actualAmount

/-- A row of the balance log. -/
structure ChangeLog where
  amount : Units
  balanceBefore : Units
  balanceAfter : Units
deriving DecidableEq, Repr

/-- How far a transaction has come. -/
inductive BalancePhase
  | started
  | locked
  | read (oldBalance : Units)
  | changed (newBalance : Units) (log : ChangeLog)
deriving DecidableEq, Repr

structure BalanceSession where
  operation : BalanceOperation
  phase : BalancePhase := .started
deriving DecidableEq, Repr

/-- What is committed of the user's balance and logs, and the open transactions. -/
structure BalanceWorld where
  balance : Units
  logs : List ChangeLog := []
  sessions : ℕ → Option BalanceSession := fun _ => none
  /-- the transaction that has the row lock of the user -/
  rowHolder : Option ℕ := none
  /-- the transaction that has the advisory lock of the balance -/
  lockHolder : Option ℕ := none

/-- The log of a change, from what the transaction has read before and what the row holds after. -/
def changeLog (oldBalance newBalance : Units) : BalanceOperation → ChangeLog
  | .refund refundAmount =>
      { amount := toUnits refundAmount, balanceBefore := oldBalance
        balanceAfter := roundUnits (oldBalance + toUnits refundAmount) }
  | .renewal finalAmount =>
      { amount := -toUnits finalAmount
        balanceBefore := roundUnits (newBalance + toUnits finalAmount)
        balanceAfter := newBalance }
  | .recharge actualAmount =>
      { amount := toUnits actualAmount
        balanceBefore := newBalance - toUnits actualAmount
        balanceAfter := newBalance }

/-! ## Steps -/

inductive BalanceEvent
  | start (session : ℕ) (operation : BalanceOperation)
  | lock (session : ℕ)
  | read (session : ℕ)
  | change (session : ℕ)
  | commit (session : ℕ)
  | rollback (session : ℕ)
deriving DecidableEq, Repr

namespace BalanceWorld

def setPhase (w : BalanceWorld) (k : ℕ) (s : BalanceSession) (phase : BalancePhase) :
    BalanceWorld :=
  { w with sessions := Function.update w.sessions k (some { s with phase }) }

/-- A transaction ends and lets go of its locks. -/
def finish (w : BalanceWorld) (k : ℕ) : BalanceWorld where
  balance := w.balance
  logs := w.logs
  sessions := Function.update w.sessions k none
  rowHolder := if w.rowHolder = some k then none else w.rowHolder
  lockHolder := if w.lockHolder = some k then none else w.lockHolder

variable (w : BalanceWorld) (k : ℕ) (s : BalanceSession) (phase : BalancePhase) {j : ℕ}

@[simp] theorem setPhase_self : (w.setPhase k s phase).sessions k = some { s with phase } :=
  Function.update_self ..

theorem setPhase_of_ne (h : j ≠ k) : (w.setPhase k s phase).sessions j = w.sessions j :=
  Function.update_of_ne h ..

@[simp] theorem finish_self : (w.finish k).sessions k = none := Function.update_self ..

theorem finish_of_ne (h : j ≠ k) : (w.finish k).sessions j = w.sessions j :=
  Function.update_of_ne h ..

end BalanceWorld

/-- Whether an operation may change the row: a refund once it has read, a renewal once it has read
and while the balance covers it, a recharge at once. -/
def BalanceSession.mayChange (s : BalanceSession) (balance : Units) : Bool :=
  match s.operation, s.phase with
  | .refund _, .read _ => true
  | .renewal finalAmount, .read _ => decide (toUnits finalAmount ≤ balance)
  | .recharge _, .started => true
  | _, _ => false

/-- What a transaction has read of the balance. -/
def BalanceSession.oldBalance (s : BalanceSession) : Units :=
  match s.phase with
  | .read oldBalance => oldBalance
  | _ => 0

/-- One statement of one transaction.  Reads see what is committed; a change waits for the row
lock and adds to what is committed then. -/
def balanceStep (w : BalanceWorld) : BalanceEvent → Option BalanceWorld
  | .start k operation =>
      match w.sessions k with
      | none => some (w.setPhase k { operation } .started)
      | some _ => none
  | .lock k =>
      match w.sessions k with
      | some s =>
          match s.operation, s.phase with
          | .refund _, .started =>
              if w.lockHolder = none then
                some { w.setPhase k s .locked with lockHolder := some k }
              else none
          | _, _ => none
      | none => none
  | .read k =>
      match w.sessions k with
      | some s =>
          match s.operation, s.phase with
          | .refund _, .locked => some (w.setPhase k s (.read w.balance))
          | .renewal finalAmount, .started =>
              -- `balanceSnapshot < finalAmount` is thrown
              if w.balance < toUnits finalAmount then none
              else some (w.setPhase k s (.read w.balance))
          | _, _ => none
      | none => none
  | .change k =>
      match w.sessions k with
      | some s =>
          if w.rowHolder = none ∧ s.mayChange w.balance then
            let newBalance := w.balance + s.operation.increment
            let log := changeLog s.oldBalance newBalance s.operation
            some { w.setPhase k s (.changed newBalance log) with rowHolder := some k }
          else none
      | none => none
  | .commit k =>
      match w.sessions k with
      | some { phase := .changed newBalance log, .. } =>
          some { w.finish k with balance := newBalance, logs := w.logs ++ [log] }
      | _ => none
  | .rollback k =>
      match w.sessions k with
      | some _ => some (w.finish k)
      | none => none

/-- What has to hold of the balance when a transaction changes it: it is what a refund has read,
and it is whole cents for a refund or a renewal. -/
def BalanceSession.sees (s : BalanceSession) (balance : Units) : Bool :=
  match s.operation with
  | .refund _ => decide (s.oldBalance = balance ∧ 1000000 ∣ balance)
  | .renewal _ => decide (1000000 ∣ balance)
  | .recharge _ => true

/-- Each change finds the balance as its log will say. -/
def balanceSeen (w : BalanceWorld) : BalanceEvent → Bool
  | .change k => (w.sessions k).all (·.sees w.balance)
  | _ => true

/-! ## One change -/

/-- The balance is rounded to itself just when it is whole cents. -/
theorem roundUnits_eq_self_iff {value : Units} : roundUnits value = value ↔ 1000000 ∣ value := by
  constructor
  · intro h
    rw [← h]
    exact Dvd.intro_left _ rfl
  · rintro ⟨c, rfl⟩
    have hcents : ((1000000 * c : ℤ) : ℚ) / 1000000 = c := by
      push_cast
      exact mul_div_cancel_left₀ _ (by norm_num)
    rw [roundUnits, hcents, roundCurrency_intCast, toUnits, mul_comm]

theorem dvd_add_toUnits_iff (value : Units) (c : Cents) :
    1000000 ∣ value + toUnits c ↔ 1000000 ∣ value :=
  Int.dvd_add_left (Dvd.intro_left c rfl)

/-- The log of a change says what the balance was and what it is. -/
structure ChangeLog.Exact (log : ChangeLog) (balance newBalance : Units) : Prop where
  before : log.balanceBefore = balance
  after : log.balanceAfter = newBalance
  amount : log.amount = newBalance - balance

/-- A change is logged as it happened just when the transaction sees the balance. -/
theorem changed_exact_iff (s : BalanceSession) (balance : Units) :
    (changeLog s.oldBalance (balance + s.operation.increment) s.operation).Exact balance
      (balance + s.operation.increment) ↔ s.sees balance = true := by
  cases hoperation : s.operation with
  | refund refundAmount =>
    simp only [BalanceSession.sees, hoperation, decide_eq_true_eq]
    constructor
    · rintro ⟨hbefore, hafter, -⟩
      have hold : s.oldBalance = balance := hbefore
      have hround : roundUnits (balance + toUnits refundAmount) = balance + toUnits refundAmount := by
        rw [← hold] at hafter ⊢
        exact hafter
      exact ⟨hold, (dvd_add_toUnits_iff _ _).mp (roundUnits_eq_self_iff.mp hround)⟩
    · rintro ⟨hold, hwhole⟩
      refine ⟨hold, ?_, (add_sub_cancel_left _ _).symm⟩
      show roundUnits (s.oldBalance + toUnits refundAmount) = balance + toUnits refundAmount
      rw [hold]
      exact roundUnits_eq_self_iff.mpr ((dvd_add_toUnits_iff _ _).mpr hwhole)
  | renewal finalAmount =>
    have hback : balance + -toUnits finalAmount + toUnits finalAmount = balance :=
      neg_add_cancel_right _ _
    simp only [BalanceSession.sees, hoperation, decide_eq_true_eq]
    constructor
    · rintro ⟨hbefore, -, -⟩
      have hround : roundUnits (balance + -toUnits finalAmount + toUnits finalAmount) = balance :=
        hbefore
      rw [hback] at hround
      exact roundUnits_eq_self_iff.mp hround
    · intro hwhole
      refine ⟨?_, rfl, (add_sub_cancel_left _ _).symm⟩
      show roundUnits (balance + -toUnits finalAmount + toUnits finalAmount) = balance
      rw [hback]
      exact roundUnits_eq_self_iff.mpr hwhole
  | recharge actualAmount =>
    simp only [BalanceSession.sees, hoperation, iff_true]
    exact ⟨add_sub_cancel_right _ _, rfl, (add_sub_cancel_left _ _).symm⟩

/-! ## Runs -/

/-- A user with the balance `b` before the operations. -/
def balanceStart (b : Units) : BalanceWorld where
  balance := b

/-- The committed logs lead to the committed balance, and a transaction that has changed the row
has its lock and a log that starts from the committed balance. -/
structure BalanceInv (b : Units) (w : BalanceWorld) : Prop where
  linked : Chained.Linked ChangeLog.balanceBefore ChangeLog.balanceAfter b w.logs w.balance
  amounts : ∀ log ∈ w.logs, log.amount = log.balanceAfter - log.balanceBefore
  changed : ∀ k operation newBalance log,
    w.sessions k = some { operation, phase := .changed newBalance log } →
      w.rowHolder = some k ∧ log.Exact w.balance newBalance

theorem balanceInv_start (b : Units) : BalanceInv b (balanceStart b) where
  linked := rfl
  amounts := fun _ hlog => nomatch hlog
  changed := fun _ _ _ _ h => nomatch h

section Steps

variable {b : Units} {w w' : BalanceWorld} {k : ℕ} {s : BalanceSession} {phase : BalancePhase}

/-- A transaction that has not changed the row goes on without changing it. -/
theorem BalanceInv.setPhase (hi : BalanceInv b w)
    (hphase : ∀ newBalance log, phase ≠ .changed newBalance log) :
    BalanceInv b (w.setPhase k s phase) where
  linked := hi.linked
  amounts := hi.amounts
  changed := by
    intro j operation newBalance log hj
    by_cases hjk : j = k
    · subst hjk
      have hnow := (w.setPhase_self j s phase).symm.trans hj
      exact absurd (congrArg BalanceSession.phase (Option.some.inj hnow)) (hphase newBalance log)
    · exact hi.changed j operation newBalance log ((w.setPhase_of_ne k s phase hjk).symm.trans hj)

/-- A transaction that sees the balance changes the row. -/
theorem BalanceInv.change (hi : BalanceInv b w) (hfree : w.rowHolder = none)
    (hsees : s.sees w.balance = true) :
    BalanceInv b
      { w.setPhase k s (.changed (w.balance + s.operation.increment)
          (changeLog s.oldBalance (w.balance + s.operation.increment) s.operation)) with
        rowHolder := some k } where
  linked := hi.linked
  amounts := hi.amounts
  changed := by
    intro j operation newBalance log hj
    by_cases hjk : j = k
    · subst hjk
      have hnow := (w.setPhase_self j s _).symm.trans hj
      have hphase := congrArg BalanceSession.phase (Option.some.inj hnow)
      obtain ⟨rfl, rfl⟩ := BalancePhase.changed.inj hphase
      exact ⟨rfl, (changed_exact_iff s w.balance).mpr hsees⟩
    · -- nobody else has changed the row, or the lock would be taken
      have hheld := (hi.changed j operation newBalance log
        ((w.setPhase_of_ne k s _ hjk).symm.trans hj)).1
      rw [hfree] at hheld
      cases hheld

/-- A transaction ends, and nothing of it is committed. -/
theorem BalanceInv.finish (hi : BalanceInv b w) : BalanceInv b (w.finish k) where
  linked := hi.linked
  amounts := hi.amounts
  changed := by
    intro j operation newBalance log hj
    by_cases hjk : j = k
    · subst hjk
      cases (w.finish_self j).symm.trans hj
    · obtain ⟨hheld, hexact⟩ := hi.changed j operation newBalance log
        ((w.finish_of_ne k hjk).symm.trans hj)
      refine ⟨?_, hexact⟩
      have hother : w.rowHolder ≠ some k := fun h => hjk (Option.some.inj (hheld.symm.trans h))
      exact (if_neg hother).trans hheld

/-- A transaction ends, and its log goes to the others. -/
theorem BalanceInv.commit (hi : BalanceInv b w) {operation : BalanceOperation}
    {newBalance : Units} {log : ChangeLog}
    (hk : w.sessions k = some { operation, phase := .changed newBalance log }) :
    BalanceInv b { w.finish k with balance := newBalance, logs := w.logs ++ [log] } := by
  obtain ⟨hheld, hexact⟩ := hi.changed k operation newBalance log hk
  refine
    { linked := ?_
      amounts := fun entry hentry => ?_
      changed := fun j operation' newBalance' log' hj => ?_ }
  · rw [← hexact.after]
    exact hi.linked.concat hexact.before
  · rcases List.mem_append.mp hentry with hold | hnew
    · exact hi.amounts entry hold
    · obtain rfl := List.mem_singleton.mp hnew
      rw [hexact.amount, hexact.after, hexact.before]
  · by_cases hjk : j = k
    · subst hjk
      cases (w.finish_self j).symm.trans hj
    · -- the row lock has been with the one that commits
      have hother := (hi.changed j operation' newBalance' log'
        ((w.finish_of_ne k hjk).symm.trans hj)).1
      exact absurd (Option.some.inj (hother.symm.trans hheld)) hjk

/-- Nothing is committed, or one log that says what the balance was and what it is. -/
def CommitsExact (w w' : BalanceWorld) : Prop :=
  w'.logs = w.logs ∧ w'.balance = w.balance ∨
    ∃ log : ChangeLog, w'.logs = w.logs ++ [log] ∧ log.Exact w.balance w'.balance

theorem balanceStep_kept {event : BalanceEvent} (hi : BalanceInv b w)
    (hseen : balanceSeen w event = true) (h : balanceStep w event = some w') :
    BalanceInv b w' ∧ CommitsExact w w' := by
  cases event with
  | start k operation =>
    simp only [balanceStep] at h
    split at h
    · cases h
      exact ⟨hi.setPhase fun _ _ hphase => (by cases hphase), .inl ⟨rfl, rfl⟩⟩
    · cases h
  | lock k =>
    simp only [balanceStep] at h
    split at h
    · split at h
      · split at h
        · cases h
          have hlocked : BalanceInv b (w.setPhase k ‹BalanceSession› .locked) :=
            hi.setPhase fun _ _ hphase => (by cases hphase)
          exact ⟨⟨hlocked.linked, hlocked.amounts, hlocked.changed⟩, .inl ⟨rfl, rfl⟩⟩
        · cases h
      · cases h
    · cases h
  | read k =>
    simp only [balanceStep] at h
    split at h
    · split at h
      · cases h
        exact ⟨hi.setPhase fun _ _ hphase => (by cases hphase), .inl ⟨rfl, rfl⟩⟩
      · split at h
        · cases h
        · cases h
          exact ⟨hi.setPhase fun _ _ hphase => (by cases hphase), .inl ⟨rfl, rfl⟩⟩
      · cases h
    · cases h
  | change k =>
    simp only [balanceStep] at h
    split at h
    · rename_i s hk
      split at h
      · rename_i hmay
        cases h
        simp only [balanceSeen, hk, Option.all_some] at hseen
        exact ⟨hi.change hmay.1 hseen, .inl ⟨rfl, rfl⟩⟩
      · cases h
    · cases h
  | commit k =>
    simp only [balanceStep] at h
    split at h
    · rename_i operation newBalance log hk
      cases h
      exact ⟨hi.commit hk, .inr ⟨log, rfl, (hi.changed k operation newBalance log hk).2⟩⟩
    · cases h
  | rollback k =>
    simp only [balanceStep] at h
    split at h
    · cases h
      exact ⟨hi.finish, .inl ⟨rfl, rfl⟩⟩
    · cases h

end Steps

/-- In every run whose changes see the balance, the logs lead from the first balance to the present
one, each with its amount, and each step that commits a log takes the balance from the one that the
log says to the other. -/
theorem balance_logs_linked {b : Units} {w : BalanceWorld}
    (h : Machine.Reach balanceStep (fun w event => balanceSeen w event = true) (balanceStart b) w) :
    Chained.Linked ChangeLog.balanceBefore ChangeLog.balanceAfter b w.logs w.balance ∧
      (∀ log ∈ w.logs, log.amount = log.balanceAfter - log.balanceBefore) ∧
      ∀ event w', balanceSeen w event = true → balanceStep w event = some w' →
        w'.logs = w.logs ∧ w'.balance = w.balance ∨
          ∃ log : ChangeLog, w'.logs = w.logs ++ [log] ∧ log.balanceBefore = w.balance ∧
            log.balanceAfter = w'.balance := by
  have hinv : BalanceInv b w := h.invariant (balanceInv_start b)
    fun hi hseen hstep => (balanceStep_kept hi hseen hstep).1
  refine ⟨hinv.linked, hinv.amounts, fun event w' hseen hstep => ?_⟩
  rcases (balanceStep_kept hinv hseen hstep).2 with hsame | ⟨log, hlogs, hexact⟩
  · exact .inl hsame
  · exact .inr ⟨log, hlogs, hexact.before, hexact.after⟩

/-- A refund, a recharge and a renewal of a user with ten yuan; the recharge starts while the
refund is open and waits for its row lock. -/
def seenEvents : List BalanceEvent :=
  [.start 1 (.refund 500), .lock 1, .read 1, .change 1, .start 2 (.recharge 2000), .commit 1,
   .change 2, .start 3 (.renewal 300), .read 3, .commit 2, .change 3, .commit 3]

theorem balance_logs_linked_seen :
    ∃ w : BalanceWorld, w.logs.map (fun log => (log.balanceBefore, log.balanceAfter)) =
        [(1000000000, 1500000000), (1500000000, 3500000000), (3500000000, 3200000000)] ∧
      Chained.Linked ChangeLog.balanceBefore ChangeLog.balanceAfter 1000000000 w.logs w.balance := by
  have hrun : (Machine.exec (Machine.guarded balanceStep balanceSeen) (balanceStart 1000000000)
      seenEvents).map (fun w => w.logs.map fun log => (log.balanceBefore, log.balanceAfter)) =
      some [(1000000000, 1500000000), (1500000000, 3500000000), (3500000000, 3200000000)] := by
    decide +kernel
  obtain ⟨w, hexec, hlogs⟩ := Option.map_eq_some_iff.mp hrun
  exact ⟨w, hlogs, (balance_logs_linked (Machine.reach_of_exec_guarded hexec)).1⟩

/-- A refund of five yuan is read before a recharge of ten is committed and added after it. -/
def staleEvents : List BalanceEvent :=
  [.start 1 (.refund 500), .lock 1, .read 1, .start 2 (.recharge 1000), .change 2, .commit 2,
   .change 1, .commit 1]

/-- The refund is logged from nothing to five yuan, with ten in the balance. -/
theorem stale_refund_log :
    ¬∀ (b : Units) (w : BalanceWorld),
      Machine.Reach balanceStep Machine.free (balanceStart b) w →
      Chained.Linked ChangeLog.balanceBefore ChangeLog.balanceAfter b w.logs w.balance := by
  intro hall
  have hrun : (Machine.exec balanceStep (balanceStart 0) staleEvents).map
      (fun w => (w.logs, w.balance)) =
      some ([⟨1000000000, 0, 1000000000⟩, ⟨500000000, 0, 500000000⟩], 1500000000) := by
    decide +kernel
  obtain ⟨w, hexec, hview⟩ := Option.map_eq_some_iff.mp hrun
  obtain ⟨hlogs, hbalance⟩ := Prod.mk.inj hview
  have hlinked := hall 0 w (Machine.reach_of_exec hexec)
  rw [hlogs] at hlinked
  -- the second log has not found what the first one has left
  exact absurd hlinked.2.1 (by decide)

end Incudal
