/-
# `DeletionRetries` — settling a privileged deletion more than once

`settlePrivilegedDeletionBilling` is meant to be safe to repeat: the refund
record of the first run is to consume what may be refunded.  It does so only
when the first run refunds everything.  A later run, a retry of the call or an
iteration of the recovery job that has fetched the row earlier, is given the
same amount again and refunds up to that amount out of what is left.

`settledOnce_iff` says exactly when any number of later runs pays nothing: the
requested amount comes to nothing, or it is at least all that may be refunded.
-/
import Incudal.RefundCap

namespace Incudal

/-! ## Later runs -/

/-- A run after the first: the same call again, or the recovery job with the
refundable value of a snapshot that it fetched before. -/
inductive LaterRun
  | retry (e : Env)
  | recovery (e : Env) (deletionRefundableValue : Option Cents)

/-- What a snapshot can hold: the value is written once, after the claim. -/
def LaterRun.Admissible (requestedRefundAmount : ℚ) : LaterRun → Prop
  | .retry _ => True
  | .recovery _ value => value = none ∨ value = some (roundCurrency requestedRefundAmount)

/-- A transaction that throws leaves the tables as they were. -/
def afterSettlement (db : Db) (result : Except String (Db × Cents)) : Db :=
  match result with
  | .ok (db', _) => db'
  | .error _ => db

/-- One later run. -/
def runLater (inst : BillingInstance) (requestedRefundAmount : ℚ) (db : Db) : LaterRun → Db
  | .retry e =>
      afterSettlement db (settlePrivilegedDeletionBilling db e inst requestedRefundAmount)
  | .recovery e value =>
      let db := confirmPendingDeleted db inst.id
      afterSettlement db (settlePrivilegedDeletionBilling db e inst (value.getD 0 : Cents))

/-- No money has moved: users with all their balances, and every ledger. -/
structure SameMoney (db db' : Db) : Prop where
  users : db'.users = db.users
  billingRecords : db'.billingRecords = db.billingRecords
  balanceLogs : db'.balanceLogs = db.balanceLogs
  hostingLogs : db'.hostingLogs = db.hostingLogs
  history : db'.history = db.history

section Retries

variable {db db' db'' db₁ : Db} {e : Env} {inst : BillingInstance} {a : ℚ} {r : Cents}

theorem SameMoney.trans (h : SameMoney db db') (h' : SameMoney db' db'') : SameMoney db db'' :=
  ⟨h'.users.trans h.users, h'.billingRecords.trans h.billingRecords,
    h'.balanceLogs.trans h.balanceLogs, h'.hostingLogs.trans h.hostingLogs,
    h'.history.trans h.history⟩

theorem SameMoney.updateInstance (db : Db) (instanceId : ℕ) (f : Instance → Instance) :
    SameMoney db (db.updateInstance instanceId f) := ⟨rfl, rfl, rfl, rfl, rfl⟩

theorem SameMoney.getMaxRefundable (h : SameMoney db db') (instanceId : ℕ) :
    getMaxRefundable db' instanceId = getMaxRefundable db instanceId := by
  simp only [Incudal.getMaxRefundable, lineage_eq h.history, h.billingRecords]

/-- A settlement that has nothing to pay moves no money. -/
theorem sameMoney_of_settled (h : settlePrivilegedDeletionBilling db e inst a = .ok (db', r))
    (hr : r ≤ 0) : SameMoney db db' := by
  obtain ⟨-, -, db₁, rfl, -, hposted⟩ := settlePrivilegedDeletionBilling_spec h
  rcases hposted with ⟨-, rfl⟩ | ⟨hpos, -⟩
  · exact .updateInstance _ inst.id _
  · exact absurd hr (not_le.mpr hpos)

/-- A run whose amount, or whose cap, is nothing moves no money. -/
theorem sameMoney_afterSettlement
    (h : roundCurrency (max 0 a) ≤ 0 ∨ getMaxRefundable db inst.id ≤ 0) :
    SameMoney db (afterSettlement db (settlePrivilegedDeletionBilling db e inst a)) := by
  cases hrun : settlePrivilegedDeletionBilling db e inst a with
  | error message => exact ⟨rfl, rfl, rfl, rfl, rfl⟩
  | ok result =>
      obtain ⟨db', r⟩ := result
      obtain ⟨-, hr, -⟩ := settlePrivilegedDeletionBilling_spec hrun
      refine sameMoney_of_settled hrun ?_
      rw [hr]
      exact min_le_iff.mpr h

/-- The later runs move no money as long as each has nothing to pay. -/
theorem sameMoney_runs (runs : List LaterRun) (hruns : ∀ run ∈ runs, run.Admissible a)
    (h : roundCurrency a ≤ 0 ∨ getMaxRefundable db inst.id ≤ 0) :
    SameMoney db (runs.foldl (runLater inst a) db) := by
  induction runs generalizing db with
  | nil => exact ⟨rfl, rfl, rfl, rfl, rfl⟩
  | cons run runs ih =>
      have hone : SameMoney db (runLater inst a db run) := by
        have hround : roundCurrency (max 0 a) ≤ 0 ∨ getMaxRefundable db inst.id ≤ 0 := by
          rw [roundCurrency_max_zero]
          exact h.imp_left (max_le le_rfl)
        cases run with
        | retry e => exact sameMoney_afterSettlement hround
        | recovery e value =>
            have hconfirm := SameMoney.updateInstance db inst.id fun i =>
              if i.isPendingDeletion then { i with deletionRemoteDeleted := true } else i
            refine hconfirm.trans (sameMoney_afterSettlement ?_)
            rw [hconfirm.getMaxRefundable]
            refine h.imp_left fun hle => ?_
            rcases hruns _ List.mem_cons_self with rfl | rfl
            · simp
            · rw [roundCurrency_max_zero, Option.getD_some, roundCurrency_intCast]
              exact max_le le_rfl hle
      refine hone.trans (ih (fun run hrun => hruns run (List.mem_cons_of_mem _ hrun)) ?_)
      rwa [hone.getMaxRefundable]

/-! ## A run that pays again -/

/-- With no lock taken a deduction goes through. -/
theorem deductHostingBalance_ok (hfree : ∀ owner, e.hostingLocked owner = false) (db : Db)
    (hostId : ℕ) (amount : Cents) (instanceId : ℕ) :
    ∃ result, deductHostingBalance db e hostId amount instanceId = .ok result := by
  unfold deductHostingBalance
  split
  · exact ⟨_, rfl⟩
  · rename_i owner _
    rw [if_neg (by simp [hfree owner])]
    exact ⟨_, rfl⟩

theorem payRefund_ok (hfree : ∀ owner, e.hostingLocked owner = false)
    (huser : (db.users inst.userId).isSome) (refundAmount hostedRefundAmount : Cents)
    (occasion : String) :
    ∃ db', payRefund db e inst refundAmount hostedRefundAmount occasion = .ok db' := by
  obtain ⟨user, huser⟩ := Option.isSome_iff_exists.mp huser
  simp only [payRefund, huser]
  generalize creditRefund db inst.userId inst.id refundAmount user.balance
    (roundUnits (user.balance + toUnits refundAmount)) = credited
  obtain ⟨db₁, balanceLogId⟩ := credited
  obtain ⟨result, hresult⟩ := deductHostingBalance_ok hfree
    (recordRefund db₁ e inst.userId inst.id refundAmount balanceLogId) inst.hostId
    hostedRefundAmount inst.id
  exact ⟨result.1, by simp only [hresult]⟩

theorem settlePrivilegedDeletionBilling_ok (hfree : ∀ owner, e.hostingLocked owner = false)
    (huser : (db.users inst.userId).isSome) (hconfirmed : deletionConfirmed db inst.id = true) :
    ∃ db' r, settlePrivilegedDeletionBilling db e inst a = .ok (db', r) := by
  unfold settlePrivilegedDeletionBilling
  rw [if_neg (by simp [hconfirmed])]
  dsimp only
  split
  · rename_i message hpaid
    split at hpaid
    · obtain ⟨db', hok⟩ := payRefund_ok hfree huser _ _ _
      rw [hok] at hpaid
      cases hpaid
    · cases hpaid
  · exact ⟨_, _, rfl⟩

theorem deletionConfirmed_cleared (hframe : HostingFrame db db')
    (h : deletionConfirmed db inst.id = true) :
    deletionConfirmed (db'.updateInstance inst.id clearDeletionBillingState) inst.id = true := by
  cases hrow : db.instances inst.id with
  | none => simp [deletionConfirmed, hrow] at h
  | some row => simp [deletionConfirmed, Db.updateInstance, hframe.instances, hrow,
      clearDeletionBillingState]

/-- A first run that refunds a part is followed by one that refunds again. -/
theorem pays_again (h : settlePrivilegedDeletionBilling db e inst a = .ok (db₁, r))
    (hpos : 0 < roundCurrency a) (hpart : roundCurrency a < getMaxRefundable db inst.id) :
    ∃ e', ¬SameMoney db₁ (runLater inst a db₁ (.retry e')) := by
  obtain ⟨hconfirmed, hr, db', rfl, hframe, hposted⟩ := settlePrivilegedDeletionBilling_spec h
  rw [roundCurrency_max_zero, max_eq_right hpos.le, min_eq_left hpart.le] at hr
  rcases hposted with ⟨hr0, -⟩ | ⟨-, ⟨log, record, logs, hposted⟩, -⟩
  · exact absurd hpos (not_lt.mpr (hr ▸ hr0))
  have hcap := hposted.getMaxRefundable (hr ▸ hpos) (hr ▸ hpart.le)
  have hclear := SameMoney.updateInstance db' inst.id clearDeletionBillingState
  have huser : ((db'.updateInstance inst.id clearDeletionBillingState).users inst.userId).isSome :=
    (hposted.posting.users inst.userId).trans hposted.user
  obtain ⟨db₂, r₂, hagain⟩ := settlePrivilegedDeletionBilling_ok (e := { now := 0 }) (a := a)
    (fun _ => rfl) huser (deletionConfirmed_cleared hframe hconfirmed)
  refine ⟨{ now := 0 }, fun hsame => ?_⟩
  simp only [runLater, hagain, afterSettlement] at hsame
  obtain ⟨-, hr₂, db'', rfl, -, hposted₂⟩ := settlePrivilegedDeletionBilling_spec hagain
  rw [roundCurrency_max_zero, max_eq_right hpos.le, hclear.getMaxRefundable, hcap] at hr₂
  have hpos₂ : 0 < r₂ := by
    rw [hr₂]
    exact lt_min hpos (sub_pos.mpr (hr ▸ hpart))
  rcases hposted₂ with ⟨hr0, -⟩ | ⟨-, ⟨log₂, record₂, logs₂, hposted₂⟩, -⟩
  · exact absurd hpos₂ (not_lt.mpr hr0)
  -- the second run has added a record
  have hlength := congrArg List.length (hposted₂.posting.billingRecords.symm.trans hsame.billingRecords)
  simp at hlength

/-- Repeating the settlement moves no more money if and only if the requested
amount comes to nothing or is at least all that may be refunded. -/
theorem settledOnce_iff (h : settlePrivilegedDeletionBilling db e inst a = .ok (db₁, r)) :
    (∀ runs : List LaterRun, (∀ run ∈ runs, run.Admissible a) →
        SameMoney db₁ (runs.foldl (runLater inst a) db₁)) ↔
      roundCurrency a ≤ 0 ∨ getMaxRefundable db inst.id ≤ roundCurrency a := by
  constructor
  · intro hsame
    by_contra hneither
    rw [not_or, not_le, not_le] at hneither
    obtain ⟨e', hagain⟩ := pays_again h hneither.1 hneither.2
    exact hagain (hsame [.retry e'] fun run hrun => by simp_all [LaterRun.Admissible])
  · intro hcond runs hruns
    refine sameMoney_runs runs hruns (hcond.imp_right fun hall => ?_)
    obtain ⟨-, hr, db', rfl, -, hposted⟩ := settlePrivilegedDeletionBilling_spec h
    have hclear := SameMoney.updateInstance db' inst.id clearDeletionBillingState
    rw [roundCurrency_max_zero, min_eq_right (hall.trans (le_max_right _ _))] at hr
    rw [hclear.getMaxRefundable]
    rcases hposted with ⟨hr0, rfl⟩ | ⟨hpos, ⟨log, record, logs, hposted⟩, -⟩
    · exact hr ▸ hr0
    · rw [hposted.getMaxRefundable hpos hr.le, hr, sub_self]

end Retries

/-! ## An instance bought for 100 yuan and deleted -/

/-- User 1 has 100 yuan; host 10 belongs to user 2. -/
def shopDb : Db where
  users
    | 1 => some { balance := 10000000000 }
    | 2 => some {}
    | _ => none
  hosts
    | 10 => some { userId := 2 }
    | _ => none
  instances _ := none
  nextId := 100

/-- Instance 6 is bought, claimed for deletion with a quote, and confirmed gone. -/
def deletionRun (quote : Cents) : List BillingStep :=
  [.createInstance { now := 0 } 6 { userId := 1, hostId := 10, status := .creating } 1
      { originalAmount := 10000, finalAmount := 10000 },
   .setStatus 6 .running, .claimDeletion 6 (some .privilegedDelete) false, .storeValue 6 quote,
   .confirmDeleted 6]

/-- A full refund is paid once, whatever is run afterwards. -/
theorem settledOnce_full_refund :
    ∃ db db₁, Machine.Reach runBillingStep Machine.free shopDb db ∧
      settlePrivilegedDeletionBilling db { now := 1 } ⟨6, 1, 10⟩ 10000 = .ok (db₁, 10000) ∧
      ∀ runs : List LaterRun, (∀ run ∈ runs, run.Admissible 10000) →
        SameMoney db₁ (runs.foldl (runLater ⟨6, 1, 10⟩ 10000) db₁) := by
  have hexec : ((Machine.exec runBillingStep shopDb (deletionRun 10000)).map fun db =>
      (getMaxRefundable db 6, (settlePrivilegedDeletionBilling db { now := 1 } ⟨6, 1, 10⟩
        10000).toOption.map (·.2))) = some (10000, some 10000) := by decide +kernel
  obtain ⟨db, hdb, hsettled⟩ := Option.map_eq_some_iff.mp hexec
  rw [Prod.mk.injEq] at hsettled
  obtain ⟨⟨db₁, r⟩, hrun, hr⟩ := Option.map_eq_some_iff.mp hsettled.2
  obtain rfl : r = 10000 := hr
  have hrun := toOption_eq_some hrun
  refine ⟨db, db₁, Machine.reach_of_exec hdb, hrun, (settledOnce_iff hrun).mpr (.inr ?_)⟩
  rw [hsettled.1]
  decide +kernel

/-- A refund of 30 out of 100 yuan is paid a second time when the recovery job
works from the row as it was before the first settlement. -/
theorem partial_refund_paid_twice :
    ∃ db db₁, Machine.Reach runBillingStep Machine.free shopDb db ∧
      settlePrivilegedDeletionBilling db { now := 1 } ⟨6, 1, 10⟩ 3000 = .ok (db₁, 3000) ∧
      (LaterRun.recovery { now := 2 } (some 3000)).Admissible 3000 ∧
      db₁.balanceOf 1 = 3000000000 ∧
      (runLater ⟨6, 1, 10⟩ 3000 db₁ (.recovery { now := 2 } (some 3000))).balanceOf 1
        = 6000000000 := by
  have hexec : ((Machine.exec runBillingStep shopDb (deletionRun 3000)).bind fun db =>
      (settlePrivilegedDeletionBilling db { now := 1 } ⟨6, 1, 10⟩ 3000).toOption.map fun result =>
        (result.2, result.1.balanceOf 1,
          (runLater ⟨6, 1, 10⟩ 3000 result.1 (.recovery { now := 2 } (some 3000))).balanceOf 1))
      = some (3000, 3000000000, 6000000000) := by decide +kernel
  obtain ⟨db, hdb, hsettled⟩ := Option.bind_eq_some_iff.mp hexec
  obtain ⟨⟨db₁, r⟩, hrun, hr⟩ := Option.map_eq_some_iff.mp hsettled
  simp only [Prod.mk.injEq] at hr
  obtain ⟨rfl, hfirst, hsecond⟩ := hr
  refine ⟨db, db₁, Machine.reach_of_exec hdb, toOption_eq_some hrun, .inr ?_, hfirst, hsecond⟩
  decide +kernel

end Incudal
