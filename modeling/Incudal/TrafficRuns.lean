/-
# `TrafficRuns` — settled bytes against overage, over whole runs

The state of a run is the tables and a history variable, `outlived`: the bills
that were pending when a reset put their instance's counters back to zero.
The bytes of such a bill belong to counters that are gone.

The invariant (`TrafficInv`) is a budget for each instance: the settled bytes
and the bytes of the pending bills that have not been outlived together stay
within the overage.  One statement says what a billing transaction does to
instance and bills (`BillingEffect`), and the step lemma reads the budget off
it.  Payment of an outlived bill that the calendar still counts into the
period is the one step that breaks the budget; without it settled bytes never
exceed the overage (`settled_le_totalOverage`).
-/
import Incudal.TrafficTransactions
import Mathlib.Algebra.Order.BigOperators.Group.List

namespace Incudal

/-! ## What a billing transaction does -/

/-- A rewrite of the instance that moves the settled bytes up by `d` and keeps
the other counters. -/
structure Settles (d : ℕ) (f : TrafficInstance → TrafficInstance) : Prop where
  id : ∀ inst, (f inst).id = inst.id
  totalOverage : ∀ inst, (f inst).totalOverage = inst.totalOverage
  trafficSettledBytes : ∀ inst, (f inst).trafficSettledBytes = inst.trafficSettledBytes + d

/-- What a billing transaction on instance `k` at `now` does to instances and
bills: it bills nothing, it adds a bill over unsettled bytes, or it pays the
pending bill `payable`. -/
inductive BillingEffect (tz : Time) (k : ℕ) (now : Time) (payable : Option TrafficBillingRecord)
    (db db' : TrafficBillingDb) : Prop
  | idle {f : TrafficInstance → TrafficInstance} (hf : Settles 0 f)
      (instances : db'.instances = Keyed.modify TrafficInstance.id k f db.instances)
      (records : db'.records = db.records) (nextId : db.nextId ≤ db'.nextId)
  | bill {f : TrafficInstance → TrafficInstance} {d : ℕ} {inst : TrafficInstance}
      {bill : TrafficBillingRecord} (hf : Settles d f)
      (found : db.findInstance k = some inst) (noDebt : db.pendingRecord k = none)
      (fresh : db.nextId ≤ bill.id ∧ bill.id < db'.nextId) (owner : bill.instanceId = k)
      (bytes : bill.trafficBytes ≤ inst.unsettledBytes)
      (paid : bill.status = .pending ∧ d = 0 ∨ bill.status = .paid ∧ d = bill.trafficBytes)
      (instances : db'.instances = Keyed.modify TrafficInstance.id k f db.instances)
      (records : db'.records = bill :: db.records)
  | pay {f : TrafficInstance → TrafficInstance} {inst : TrafficInstance}
      {pending : TrafficBillingRecord} {g : TrafficBillingRecord → TrafficBillingRecord}
      (hf : Settles (if pending.periodStart < db.trafficPeriodStart tz inst now then 0
        else pending.trafficBytes) f)
      (found : db.findInstance k = some inst) (chosen : payable = some pending)
      (mem : pending ∈ db.records)
      (debt : pending.status = .pending) (owner : pending.instanceId = k)
      (hg : ∀ r, (g r).id = r.id ∧ (g r).instanceId = r.instanceId ∧ (g r).status = .paid)
      (instances : db'.instances = Keyed.modify TrafficInstance.id k f db.instances)
      (records : db'.records = Keyed.modify TrafficBillingRecord.id pending.id g db.records)
      (nextId : db.nextId ≤ db'.nextId)

section Effects

variable {tz : Time} {db db' : TrafficBillingDb} {k userId : ℕ} {now : Time}
  {trigger : SettlementTrigger} {payable : Option TrafficBillingRecord}

theorem SettlesFor.settles {bytes : ℕ} {cost : Cents} {f : TrafficInstance → TrafficInstance}
    (h : SettlesFor bytes cost f) : Settles bytes f :=
  ⟨h.id, h.totalOverage, h.trafficSettledBytes⟩

theorem BillOver.le_unsettledBytes {inst : TrafficInstance} {bill : TrafficBillingRecord}
    (h : BillOver tz db k now inst bill) : bill.trafficBytes ≤ inst.unsettledBytes :=
  h.bytes ▸ billingBytesOf_le _ _

theorem BillingDone.effect {billable : ℕ} (h : BillingDone tz k now payable billable db db') :
    BillingEffect tz k now payable db db' := by
  cases h with
  | idle hf instances _ _ records _ nextId =>
      exact .idle hf.settles instances records nextId.ge
  | owe hf found noDebt billOver _ _ unpaid fresh instances _ _ records _ nextId =>
      refine .bill hf.settles found noDebt ⟨fresh.ge, ?_⟩ billOver.owner billOver.le_unsettledBytes
        (.inl ⟨unpaid.1, rfl⟩) instances records
      rw [nextId, fresh]
      exact Nat.lt_succ_self _
  | charge hf found noDebt billOver _ _ paid fresh instances _ records nextId _ =>
      refine .bill hf.settles found noDebt ⟨?_, ?_⟩ billOver.owner billOver.le_unsettledBytes
        (.inr ⟨paid.1, rfl⟩) instances records
      · rw [fresh]
        exact Nat.le_succ _
      · rw [nextId, fresh]
        exact Nat.lt_succ_self _
  | pay hf found chosen mem debt owner hg _ instances _ records nextId _ =>
      exact .pay hf.settles found chosen mem debt owner hg instances records
        (nextId ▸ Nat.le_succ _)

theorem settleInstance_effect :
    BillingEffect tz k now (db.billSettled k now trigger) db
      (settleInstance tz db k now trigger).1 :=
  settleInstance_done.effect

theorem payPendingTrafficBill_effect {amount : Cents}
    (h : payPendingTrafficBillAndUnsuspend tz db k userId now = .ok (db', amount)) :
    BillingEffect tz k now (db.owedRecord k userId) db db' :=
  (payPendingTrafficBill_done h).effect

end Effects

/-! ## Runs -/

/-- The tables, and the bills that a reset left pending. -/
structure TrafficWorld where
  db : TrafficBillingDb
  outlived : List ℕ

/-- What can happen: bytes are accounted, a settlement runs, the owner pays,
traffic is reset; and other parts of the program write a balance or a status. -/
inductive TrafficBillingEvent
  | accrue (instanceId delta : ℕ)
  | settle (instanceId : ℕ) (now : Time) (trigger : SettlementTrigger)
  | payPending (instanceId userId : ℕ) (now : Time)
  | reset (path : ResetPath)
  | setBalance (userId : ℕ) (balance : Option Units)
  | setStatus (instanceId : ℕ) (status : InstanceStatus) (suspendReason : Option String)

/-- The pending bills of the instances that a reset reaches. -/
def TrafficBillingDb.pendingUnder (db : TrafficBillingDb) (path : ResetPath) : List ℕ :=
  (db.records.filter fun r => r.status == .pending &&
    db.instances.any fun inst => inst.id == r.instanceId && path.reaches inst).map (·.id)

section Runs

variable (tz : Time)

/-- One event.  A payment that is refused is no step. -/
def trafficBillingStep (w : TrafficWorld) : TrafficBillingEvent → Option TrafficWorld
  | .accrue instanceId delta =>
      some { w with db := w.db.updateInstance instanceId (·.accrue delta) }
  | .settle instanceId now trigger =>
      some { w with db := (settleInstance tz w.db instanceId now trigger).1 }
  | .payPending instanceId userId now =>
      match payPendingTrafficBillAndUnsuspend tz w.db instanceId userId now with
      | .ok (db, _) => some { w with db }
      | .error _ => none
  | .reset path =>
      some { db := resetMonthlyTraffic path w.db
             outlived := w.db.pendingUnder path ++ w.outlived }
  | .setBalance userId balance =>
      some { w with db := { w.db with balance := Function.update w.db.balance userId balance } }
  | .setStatus instanceId status suspendReason =>
      some { w with db := w.db.updateInstance instanceId ({ · with status, suspendReason }) }

/-- No bill is paid into the period that a reset has outlived: a pending bill
that a step pays, and that the calendar counts into the period of the payment,
is not among the outlived ones. -/
def PaysOwnPeriod (w : TrafficWorld) : TrafficBillingEvent → Prop
  | .settle instanceId now trigger =>
      ∀ bill ∈ w.db.billSettled instanceId now trigger, ∀ inst ∈ w.db.findInstance instanceId,
        ¬ bill.periodStart < w.db.trafficPeriodStart tz inst now → bill.id ∉ w.outlived
  | .payPending instanceId userId now =>
      ∀ bill ∈ w.db.owedRecord instanceId userId, ∀ inst ∈ w.db.findInstance instanceId,
        ¬ bill.periodStart < w.db.trafficPeriodStart tz inst now → bill.id ∉ w.outlived
  | _ => True

end Runs

/-! ## The budget of an instance -/

namespace TrafficWorld

variable (w : TrafficWorld)

/-- The bytes on pending bills of an instance that no reset has outlived. -/
def openBytes (k : ℕ) : ℤ :=
  Keyed.total (fun r => if r.instanceId = k ∧ r.status = .pending ∧ r.id ∉ w.outlived
    then (r.trafficBytes : ℤ) else 0) w.db.records

/-- Settled bytes and open bills stay within the overage. -/
structure TrafficInv : Prop where
  instanceIds : (w.db.instances.map TrafficInstance.id).Nodup
  recordIds : (w.db.records.map TrafficBillingRecord.id).Nodup
  recordsOld : ∀ r ∈ w.db.records, r.id < w.db.nextId
  outlivedOld : ∀ i ∈ w.outlived, i < w.db.nextId
  budget : ∀ inst ∈ w.db.instances,
    (inst.trafficSettledBytes : ℤ) + w.openBytes inst.id ≤ inst.totalOverage

/-- A start without bills: settled bytes within the overage. -/
structure TrafficStart : Prop where
  instanceIds : (w.db.instances.map TrafficInstance.id).Nodup
  records : w.db.records = []
  outlived : w.outlived = []
  settled : ∀ inst ∈ w.db.instances, inst.trafficSettledBytes ≤ inst.totalOverage

end TrafficWorld

section Budget

variable {tz : Time} {w w' : TrafficWorld} {e : TrafficBillingEvent} {k : ℕ} {now : Time}
  {payable : Option TrafficBillingRecord} {db' : TrafficBillingDb}

theorem openBytes_nonneg (k : ℕ) : 0 ≤ w.openBytes k := by
  refine List.sum_nonneg fun x hx => ?_
  obtain ⟨r, -, rfl⟩ := List.mem_map.mp hx
  split_ifs
  · exact Int.natCast_nonneg _
  · exact le_rfl

theorem inv_start (h : w.TrafficStart) : w.TrafficInv where
  instanceIds := h.instanceIds
  recordIds := by simp [h.records]
  recordsOld := by simp [h.records]
  outlivedOld := by simp [h.outlived]
  budget inst hinst := by
    simp only [TrafficWorld.openBytes, h.records, Keyed.total_nil, add_zero]
    exact_mod_cast h.settled inst hinst

/-- With no pending bill there are no open bytes. -/
theorem openBytes_of_noDebt (h : w.db.pendingRecord k = none) : w.openBytes k = 0 := by
  have hzero : ∀ r ∈ w.db.records,
      ¬ (r.instanceId = k ∧ r.status = .pending ∧ r.id ∉ w.outlived) := by
    rintro r hr ⟨hk, hpending, -⟩
    have := List.find?_eq_none.mp h r hr
    simp [hk, hpending] at this
  exact Keyed.total_eq_zero fun r hr => if_neg (hzero r hr)

theorem settled_le_of_inv (hinv : w.TrafficInv) {inst : TrafficInstance}
    (h : inst ∈ w.db.instances) : inst.trafficSettledBytes ≤ inst.totalOverage := by
  have hbudget := hinv.budget inst h
  have hopen := openBytes_nonneg (w := w) inst.id
  omega

/-- The budget of a rewritten table: the addressed row has `d` more settled
bytes to account for, the others what they had. -/
theorem budget_modify {f : TrafficInstance → TrafficInstance} {d : ℕ} {outlived : List ℕ}
    (hinv : w.TrafficInv) (hf : Settles d f)
    (instances : db'.instances = Keyed.modify TrafficInstance.id k f w.db.instances)
    (hself : ∀ inst ∈ w.db.instances, inst.id = k →
      (inst.trafficSettledBytes : ℤ) + d + TrafficWorld.openBytes ⟨db', outlived⟩ k
        ≤ inst.totalOverage)
    (hother : ∀ j, j ≠ k → TrafficWorld.openBytes ⟨db', outlived⟩ j ≤ w.openBytes j) :
    ∀ inst ∈ db'.instances, (inst.trafficSettledBytes : ℤ)
      + TrafficWorld.openBytes ⟨db', outlived⟩ inst.id ≤ inst.totalOverage := by
  intro inst' hmem
  rw [instances] at hmem
  obtain ⟨inst, hinst, rfl⟩ := Keyed.mem_modify.mp hmem
  by_cases hk : inst.id = k
  · have := hself inst hinst hk
    rw [if_pos hk, hf.trafficSettledBytes, hf.totalOverage, hf.id, hk]
    push_cast
    exact this
  · rw [if_neg hk]
    have := hinv.budget inst hinst
    have := hother inst.id hk
    omega

theorem instanceIds_modify {f : TrafficInstance → TrafficInstance} (hinv : w.TrafficInv)
    (hf : ∀ inst, (f inst).id = inst.id)
    (instances : db'.instances = Keyed.modify TrafficInstance.id k f w.db.instances) :
    (db'.instances.map TrafficInstance.id).Nodup := by
  rw [instances, Keyed.map_key_modify hf]
  exact hinv.instanceIds

/-- The open bytes after a new bill. -/
theorem openBytes_bill {bill : TrafficBillingRecord} (hinv : w.TrafficInv)
    (fresh : w.db.nextId ≤ bill.id) (records : db'.records = bill :: w.db.records) (j : ℕ) :
    TrafficWorld.openBytes ⟨db', w.outlived⟩ j
      = (if bill.instanceId = j ∧ bill.status = .pending then (bill.trafficBytes : ℤ) else 0)
        + w.openBytes j := by
  have hnew : bill.id ∉ w.outlived := fun h =>
    absurd (hinv.outlivedOld bill.id h) (not_lt.mpr fresh)
  simp [TrafficWorld.openBytes, records, hnew]

/-- The open bytes after a pending bill is paid. -/
theorem openBytes_pay {pending : TrafficBillingRecord}
    {g : TrafficBillingRecord → TrafficBillingRecord} (hinv : w.TrafficInv)
    (mem : pending ∈ w.db.records) (debt : pending.status = .pending)
    (hg : ∀ r, (g r).id = r.id ∧ (g r).instanceId = r.instanceId ∧ (g r).status = .paid)
    (records : db'.records = Keyed.modify TrafficBillingRecord.id pending.id g w.db.records)
    (j : ℕ) :
    TrafficWorld.openBytes ⟨db', w.outlived⟩ j = w.openBytes j
      - if pending.instanceId = j ∧ pending.id ∉ w.outlived
        then (pending.trafficBytes : ℤ) else 0 := by
  rw [TrafficWorld.openBytes, records, Keyed.total_modify hinv.recordIds mem]
  simp [TrafficWorld.openBytes, debt, hg]

/-- A billing transaction keeps the budget, unless it pays an outlived bill
into the period. -/
theorem inv_billingEffect (hinv : w.TrafficInv)
    (h : BillingEffect tz k now payable w.db db')
    (hok : ∀ bill ∈ payable, ∀ inst ∈ w.db.findInstance k,
      ¬ bill.periodStart < w.db.trafficPeriodStart tz inst now → bill.id ∉ w.outlived) :
    TrafficWorld.TrafficInv { w with db := db' } := by
  cases h with
  | idle hf instances records nextId =>
      have hopen : ∀ j, TrafficWorld.openBytes ⟨db', w.outlived⟩ j = w.openBytes j := fun j => by
        simp [TrafficWorld.openBytes, records]
      refine ⟨instanceIds_modify hinv hf.id instances, ?_, ?_, ?_, ?_⟩
      · simpa [records] using hinv.recordIds
      · intro r hr
        exact (hinv.recordsOld r (records ▸ hr)).trans_le nextId
      · exact fun i hi => (hinv.outlivedOld i hi).trans_le nextId
      · refine budget_modify hinv hf instances (fun inst hinst hk => ?_) fun j _ => (hopen j).le
        have := hinv.budget inst hinst
        rw [hopen, ← hk]
        simpa using this
  | @bill f d inst bill hf found noDebt fresh owner bytes paid instances records =>
      have hopen := openBytes_bill hinv fresh.1 records
      refine ⟨instanceIds_modify hinv hf.id instances, ?_, ?_, ?_, ?_⟩
      · have hnew : bill.id ∉ w.db.records.map TrafficBillingRecord.id := fun h => by
          obtain ⟨r, hr, he⟩ := List.mem_map.mp h
          have := hinv.recordsOld r hr
          omega
        simpa [records] using ⟨by simpa using hnew, hinv.recordIds⟩
      · intro r hr
        simp only [records, List.mem_cons] at hr
        rcases hr with rfl | hr
        · exact fresh.2
        · exact (hinv.recordsOld r hr).trans_le (fresh.1.trans fresh.2.le)
      · exact fun i hi => (hinv.outlivedOld i hi).trans_le (fresh.1.trans fresh.2.le)
      · refine budget_modify hinv hf instances (fun inst' hinst hk => ?_) fun j hj => ?_
        · -- the row found under `k` is the only one
          have hsame : inst' = inst := by
            have := Keyed.lookup_of_mem hinv.instanceIds hinst
            rw [hk] at this
            exact Option.some.inj (this.symm.trans found)
          subst hsame
          have hle := settled_le_of_inv hinv hinst
          simp only [TrafficInstance.unsettledBytes] at bytes
          rw [hopen, openBytes_of_noDebt noDebt]
          rcases paid with ⟨hpending, hd⟩ | ⟨hpaid, hd⟩
          · rw [if_pos ⟨owner, hpending⟩, hd]
            push_cast
            omega
          · rw [if_neg (by simp [hpaid]), hd]
            omega
        · rw [hopen, if_neg (by rw [owner]; exact fun h => hj h.1.symm), zero_add]
  | @pay f inst pending g hf found chosen mem debt owner hg instances records nextId =>
      have hopen := openBytes_pay hinv mem debt hg records
      refine ⟨instanceIds_modify hinv hf.id instances, ?_, ?_, ?_, ?_⟩
      · simp only [records, Keyed.map_key_modify fun r => (hg r).1]
        exact hinv.recordIds
      · intro r hr
        simp only [records] at hr
        obtain ⟨r₀, hr₀, rfl⟩ := Keyed.mem_modify.mp hr
        have := hinv.recordsOld r₀ hr₀
        split_ifs
        · rw [(hg r₀).1]
          exact this.trans_le nextId
        · exact this.trans_le nextId
      · exact fun i hi => (hinv.outlivedOld i hi).trans_le nextId
      · refine budget_modify hinv hf instances (fun inst' hinst hk => ?_) fun j hj => ?_
        · have hbudget := hinv.budget inst' hinst
          rw [hk] at hbudget
          rw [hopen]
          by_cases hout : pending.id ∈ w.outlived
          · -- an outlived bill is paid, and counts nothing
            have hearlier : pending.periodStart < w.db.trafficPeriodStart tz inst now := by
              by_contra hcounts
              exact hok pending chosen inst found hcounts hout
            rw [if_pos hearlier, if_neg fun h => h.2 hout]
            push_cast
            omega
          · -- its bytes were open and count at most once
            rw [if_pos (show pending.instanceId = k ∧ pending.id ∉ w.outlived from ⟨owner, hout⟩)]
            split_ifs <;> push_cast <;> omega
        · rw [hopen, if_neg (by rw [owner]; exact fun h => hj h.1.symm), sub_zero]

/-- A rewrite that keeps the settled bytes and never lowers the overage keeps the budget. -/
theorem inv_updateInstance {f : TrafficInstance → TrafficInstance} (hinv : w.TrafficInv)
    (hid : ∀ inst, (f inst).id = inst.id)
    (hsettled : ∀ inst, (f inst).trafficSettledBytes = inst.trafficSettledBytes)
    (hoverage : ∀ inst, inst.totalOverage ≤ (f inst).totalOverage) :
    TrafficWorld.TrafficInv { w with db := w.db.updateInstance k f } := by
  refine ⟨instanceIds_modify hinv hid rfl, hinv.recordIds, hinv.recordsOld, hinv.outlivedOld, ?_⟩
  intro inst' hmem
  obtain ⟨inst, hinst, rfl⟩ := Keyed.mem_modify.mp hmem
  have hbudget := hinv.budget inst hinst
  have hle := hoverage inst
  split_ifs
  · rw [hsettled, hid]
    exact hbudget.trans (by exact_mod_cast hle)
  · exact hbudget

@[simp] theorem resetTraffic_id (inst : TrafficInstance) : inst.resetTraffic.id = inst.id := rfl

/-- After a reset the instances it reaches have no open bills. -/
theorem openBytes_reset_of_reaches {path : ResetPath} {inst : TrafficInstance}
    (hinst : inst ∈ w.db.instances) (hreach : path.reaches inst = true) :
    TrafficWorld.openBytes ⟨resetMonthlyTraffic path w.db, w.db.pendingUnder path ++ w.outlived⟩
      inst.id = 0 := by
  have hzero : ∀ r ∈ w.db.records, ¬ (r.instanceId = inst.id ∧ r.status = .pending ∧
      r.id ∉ w.db.pendingUnder path ++ w.outlived) := by
    rintro r hr ⟨hk, hpending, hnot⟩
    refine hnot (List.mem_append_left _ (List.mem_map_of_mem (List.mem_filter.mpr ⟨hr, ?_⟩)))
    simp only [hpending, beq_self_eq_true, Bool.true_and, List.any_eq_true, Bool.and_eq_true,
      beq_iff_eq]
    exact ⟨inst, hinst, hk.symm, hreach⟩
  exact Keyed.total_eq_zero fun r hr => if_neg (hzero r hr)

/-- A reset never adds open bytes. -/
theorem openBytes_reset_le (path : ResetPath) (j : ℕ) :
    TrafficWorld.openBytes ⟨resetMonthlyTraffic path w.db, w.db.pendingUnder path ++ w.outlived⟩ j
      ≤ w.openBytes j := by
  refine List.sum_le_sum fun r _ => ?_
  by_cases hout : r.id ∈ w.outlived
  · simp [hout]
  · simp only [List.mem_append, hout, or_false, not_false_eq_true, and_true]
    split_ifs <;> first | omega | simp_all

theorem instanceIds_reset (path : ResetPath) (db : TrafficBillingDb) :
    (resetMonthlyTraffic path db).instances.map TrafficInstance.id
      = db.instances.map TrafficInstance.id := by
  simp only [resetMonthlyTraffic, List.map_map]
  refine List.map_congr_left fun inst _ => ?_
  simp only [Function.comp_apply]
  split_ifs <;> rfl

theorem inv_reset (hinv : w.TrafficInv) (path : ResetPath) :
    TrafficWorld.TrafficInv
      ⟨resetMonthlyTraffic path w.db, w.db.pendingUnder path ++ w.outlived⟩ := by
  refine ⟨?_, hinv.recordIds, hinv.recordsOld, ?_, ?_⟩
  · rw [instanceIds_reset]
    exact hinv.instanceIds
  · intro i hi
    rcases List.mem_append.mp hi with hi | hi
    · obtain ⟨r, hr, rfl⟩ := List.mem_map.mp hi
      exact hinv.recordsOld r (List.mem_of_mem_filter hr)
    · exact hinv.outlivedOld i hi
  · intro inst' hmem
    obtain ⟨inst, hinst, rfl⟩ := List.mem_map.mp hmem
    by_cases hreach : path.reaches inst = true
    · rw [if_pos hreach, resetTraffic_id, openBytes_reset_of_reaches hinst hreach]
      simp [TrafficInstance.resetTraffic]
    · rw [if_neg hreach]
      have hbudget := hinv.budget inst hinst
      have hle := openBytes_reset_le (w := w) path inst.id
      omega

/-- One step keeps the budget. -/
theorem inv_step (hinv : w.TrafficInv) (hok : PaysOwnPeriod tz w e)
    (hs : trafficBillingStep tz w e = some w') : w'.TrafficInv := by
  cases e with
  | accrue instanceId delta =>
      cases hs
      refine inv_updateInstance hinv (fun _ => rfl) (fun _ => rfl) fun inst => ?_
      simp only [TrafficInstance.totalOverage, TrafficInstance.accrue]
      omega
  | settle instanceId now trigger =>
      cases hs
      exact inv_billingEffect hinv settleInstance_effect hok
  | payPending instanceId userId now =>
      simp only [trafficBillingStep] at hs
      split at hs
      · rename_i db amount hpay
        cases hs
        exact inv_billingEffect hinv (payPendingTrafficBill_effect hpay) hok
      · cases hs
  | reset path =>
      cases hs
      exact inv_reset hinv path
  | setBalance userId balance =>
      cases hs
      exact ⟨hinv.instanceIds, hinv.recordIds, hinv.recordsOld, hinv.outlivedOld, hinv.budget⟩
  | setStatus instanceId status suspendReason =>
      cases hs
      exact inv_updateInstance hinv (fun _ => rfl) (fun _ => rfl) fun _ => le_rfl

/-- In every run in which no bill is paid into a period that a reset has
outlived, the settled bytes of every instance, and so of the usage-billed ones,
stay within its overage. -/
theorem settled_le_totalOverage (tz : Time) {w₀ w : TrafficWorld} (hstart : w₀.TrafficStart)
    (hrun : Machine.Reach (trafficBillingStep tz) (PaysOwnPeriod tz) w₀ w)
    {inst : TrafficInstance} (hinst : inst ∈ w.db.instances) :
    inst.trafficSettledBytes ≤ inst.totalOverage :=
  settled_le_of_inv (hrun.invariant (inv_start hstart) inv_step) hinst

/-- Only a reset adds to the outlived bills. -/
theorem outlived_step (hs : trafficBillingStep tz w e = some w') (he : ∀ path, e ≠ .reset path) :
    w'.outlived = w.outlived := by
  cases e with
  | reset path => exact absurd rfl (he path)
  | payPending instanceId userId now =>
      simp only [trafficBillingStep] at hs
      split at hs
      · cases hs; rfl
      · cases hs
  | _ => cases hs; rfl

/-- A usage-billed instance at one yuan per GiB beyond nothing included. -/
def usageInstance : TrafficInstance :=
  { id := 1, hostId := 1, userId := 1, status := .running
    trafficBillingMode := .usage, trafficUnitPrice := 10000 }

/-- The instance before any traffic, its owner without money. -/
def usageStart : TrafficWorld :=
  { db :=
      { instances := [usageInstance]
        trafficResetDay := fun _ => 1
        balance := fun userId => if userId = 1 then some 0 else none
        records := []
        balanceLogs := []
        nextId := 1 }
    outlived := [] }

theorem usageStart_start : usageStart.TrafficStart where
  instanceIds := by decide
  records := rfl
  outlived := rfl
  settled := by decide

/-- Midnight on the reset day of the host. -/
def resetMidnight : Time := startOfDate 0 2026 8 1

/-- A bill paid with no reset in between is within the overage. -/
theorem settled_le_totalOverage_no_reset :
    ∃ w, Machine.Reach (trafficBillingStep 0) (PaysOwnPeriod 0) usageStart w ∧
      w.db.instances.map (·.trafficSettledBytes) = [GIB] ∧
      ∀ inst ∈ w.db.instances, inst.trafficSettledBytes ≤ inst.totalOverage := by
  have hexec : (Machine.exec (trafficBillingStep 0) usageStart
      [.accrue 1 GIB, .settle 1 resetMidnight .hourly, .setBalance 1 (some 100000000),
        .payPending 1 1 (resetMidnight + 3600000)]).map
      (fun w => w.db.instances.map (·.trafficSettledBytes)) = some [GIB] := by decide +kernel
  obtain ⟨w, hw, hsettled⟩ := Option.map_eq_some_iff.mp hexec
  have hrun : Machine.Reach (trafficBillingStep 0) (PaysOwnPeriod 0) usageStart w := by
    refine Machine.reach_of_exec_of (P := fun w => w.outlived = []) hw rfl ?_ ?_
    · intro s i _ hs
      cases i <;> simp [PaysOwnPeriod, hs]
    · intro s t i hi hs hstep
      rw [outlived_step hstep (by rintro path rfl; simp at hi), hs]
  exact ⟨w, hrun, hsettled, fun _ hinst => settled_le_totalOverage 0 usageStart_start hrun hinst⟩

/-- The hourly settlement at midnight of the reset day leaves a bill pending,
five minutes later the host's reset empties the counters, and the payment an
hour later settles a GiB that has yet to be used. -/
theorem outlived_bill_paid_into_next_period :
    ∃ w, Machine.Reach (trafficBillingStep 0) Machine.free usageStart w ∧
      ∃ inst ∈ w.db.instances, inst.trafficBillingMode = .usage ∧
        ¬ inst.trafficSettledBytes ≤ inst.totalOverage := by
  have hexec : (Machine.exec (trafficBillingStep 0) usageStart
      [.accrue 1 GIB, .settle 1 resetMidnight .hourly, .reset (.hosts [1]),
        .setBalance 1 (some 100000000), .payPending 1 1 (resetMidnight + 3600000)]).map
      (fun w => w.db.instances.map fun inst =>
        (inst.trafficBillingMode, inst.trafficSettledBytes, inst.totalOverage))
      = some [(.usage, GIB, 0)] := by decide +kernel
  obtain ⟨w, hw, hcolumns⟩ := Option.map_eq_some_iff.mp hexec
  obtain ⟨inst, hinst, hcolumn⟩ : ∃ inst ∈ w.db.instances,
      (inst.trafficBillingMode, inst.trafficSettledBytes, inst.totalOverage) = (.usage, GIB, 0) := by
    refine List.mem_map.mp ?_
    rw [hcolumns]
    exact List.mem_singleton.mpr rfl
  simp only [Prod.mk.injEq] at hcolumn
  refine ⟨w, Machine.reach_of_exec hw, inst, hinst, hcolumn.1, ?_⟩
  rw [hcolumn.2.1, hcolumn.2.2]
  decide

end Budget

end Incudal
