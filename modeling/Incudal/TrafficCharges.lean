/-
# `TrafficCharges` — what is charged for a period, against the exact price

A settlement bills the unsettled bytes rounded down to cents, and settles the
bytes that these cents pay for, rounded down once more.  The first rounding is
in favour of the user, what it leaves out stays unsettled.  The second one is
not: the fraction of a byte that it drops has been charged, stays unsettled,
and is charged again.  `periodDropped` adds these fractions up, in the unit in which a
cent is 100 GiB and a byte costs the unit price.

Within one period of one instance the bills never settle more bytes than there
are, every paid bill has one log of its amount, and what is left uncharged is
worth less than a cent and the unsettled bytes.  What is charged stays below the
exact price as long as no amount is reached only with the fractions dropped
before (`FractionsCovered`, `traffic_charged_exactly`).
-/
import Incudal.TrafficRuns
import Mathlib.Algebra.Order.Ring.Int
import Mathlib.Tactic.Linarith

namespace Incudal

/-! ## The bills of a period -/

/-- A bill of instance `k` in the period from `start` on. -/
abbrev TrafficBillingRecord.OfPeriod (k : ℕ) (start : Time) (r : TrafficBillingRecord) : Prop :=
  r.instanceId = k ∧ start ≤ r.periodStart

/-- The sum of a column over the bills of a period. -/
def periodTotal (k : ℕ) (start : Time) (g : TrafficBillingRecord → ℤ)
    (records : List TrafficBillingRecord) : ℤ :=
  Keyed.total (fun r => if r.OfPeriod k start then g r else 0) records

section
variable (k : ℕ) (start : Time) (records : List TrafficBillingRecord)

/-- The cents of the paid bills. -/
def periodCharged : ℤ :=
  periodTotal k start (fun r => if r.status = .paid then r.amount else 0) records

/-- The cents of all bills. -/
def periodBilled : ℤ := periodTotal k start (·.amount) records

def periodPaidBytes : ℤ :=
  periodTotal k start (fun r => if r.status = .paid then (r.trafficBytes : ℤ) else 0) records

def periodOwedBytes : ℤ :=
  periodTotal k start (fun r => if r.status = .pending then (r.trafficBytes : ℤ) else 0) records

/-- What the bills charge beyond the price of their bytes: the fractions of bytes that were
dropped. -/
def periodDropped (unitPrice : ℕ) : ℤ :=
  periodTotal k start (fun r => r.amount * (100 * GIB) - r.trafficBytes * unitPrice) records

end

variable {k : ℕ} {start : Time} {records : List TrafficBillingRecord} {r : TrafficBillingRecord}
  {g : TrafficBillingRecord → ℤ}

theorem periodTotal_cons_of (h : r.OfPeriod k start) :
    periodTotal k start g (r :: records) = g r + periodTotal k start g records := by
  rw [periodTotal, Keyed.total_cons, if_pos h]
  rfl

theorem periodTotal_cons_of_not (h : ¬r.OfPeriod k start) :
    periodTotal k start g (r :: records) = periodTotal k start g records := by
  rw [periodTotal, Keyed.total_cons, if_neg h, zero_add]
  rfl

theorem periodTotal_nonneg (h : ∀ r ∈ records, r.OfPeriod k start → 0 ≤ g r) :
    0 ≤ periodTotal k start g records := by
  refine Keyed.total_nonneg fun r hr => ?_
  split
  · rename_i hof
    exact h r hr hof
  · exact le_rfl

theorem le_periodTotal (h : ∀ r ∈ records, r.OfPeriod k start → 0 ≤ g r) (hr : r ∈ records)
    (hof : r.OfPeriod k start) : g r ≤ periodTotal k start g records := by
  refine (if_pos hof).ge.trans (Keyed.le_total (g := fun r => if r.OfPeriod k start then g r else 0)
    (fun r hr => ?_) hr)
  split
  · rename_i hof
    exact h r hr hof
  · exact le_rfl

theorem periodTotal_le {g' : TrafficBillingRecord → ℤ}
    (h : ∀ r ∈ records, r.OfPeriod k start → g r ≤ g' r) :
    periodTotal k start g records ≤ periodTotal k start g' records := by
  refine Keyed.total_le_total fun r hr => ?_
  split
  · rename_i hof
    exact h r hr hof
  · exact le_rfl

/-- A rewrite of a bill of the period changes the sum by what the bill changes by. -/
theorem periodTotal_modify {f : TrafficBillingRecord → TrafficBillingRecord}
    (hids : (records.map TrafficBillingRecord.id).Nodup) (hr : r ∈ records)
    (hsame : (f r).OfPeriod k start ↔ r.OfPeriod k start) :
    periodTotal k start g (Keyed.modify TrafficBillingRecord.id r.id f records) =
      periodTotal k start g records + if r.OfPeriod k start then g (f r) - g r else 0 := by
  rw [periodTotal, Keyed.total_modify hids hr, if_congr hsame rfl rfl]
  show periodTotal k start g records - _ + _ = _
  split_ifs <;> ring

theorem periodTotal_add (g g' : TrafficBillingRecord → ℤ) :
    periodTotal k start g records + periodTotal k start g' records =
      periodTotal k start (fun r => g r + g' r) records := by
  rw [periodTotal, periodTotal, ← Keyed.total_add]
  refine Keyed.total_congr fun r _ => ?_
  split_ifs
  · rfl
  · exact add_zero 0

theorem periodTotal_mul (g : TrafficBillingRecord → ℤ) (c : ℤ) :
    periodTotal k start (fun r => g r * c) records = periodTotal k start g records * c := by
  induction records with
  | nil => exact (zero_mul c).symm
  | cons r records ih =>
    by_cases h : r.OfPeriod k start
    · rw [periodTotal_cons_of h, periodTotal_cons_of h, ih, add_mul]
    · rw [periodTotal_cons_of_not h, periodTotal_cons_of_not h, ih]

/-- A bill is paid or pending. -/
theorem bytes_split (r : TrafficBillingRecord) :
    (if r.status = .paid then (r.trafficBytes : ℤ) else 0) +
      (if r.status = .pending then (r.trafficBytes : ℤ) else 0) = r.trafficBytes := by
  cases r.status with
  | paid => exact add_zero _
  | pending => exact zero_add _

/-- What is billed is the price of the billed bytes and the dropped fractions. -/
theorem billed_eq (k : ℕ) (start : Time) (records : List TrafficBillingRecord) (unitPrice : ℕ) :
    periodBilled k start records * (100 * GIB) =
      (periodPaidBytes k start records + periodOwedBytes k start records) * unitPrice +
        periodDropped k start records unitPrice := by
  rw [periodBilled, periodPaidBytes, periodOwedBytes, periodDropped, periodTotal_add,
    ← periodTotal_mul, ← periodTotal_mul, periodTotal_add]
  refine Keyed.total_congr fun r _ => ?_
  dsimp only
  rw [bytes_split, add_sub_cancel]

/-! ## The account of an instance -/

/-- What the counters of an instance say about the bills of the period, and what the bills are
worth. -/
structure PeriodAccount (start : Time) (records : List TrafficBillingRecord)
    (inst : TrafficInstance) : Prop where
  settledBytes : (inst.trafficSettledBytes : ℤ) = periodPaidBytes inst.id start records
  settledCost : inst.trafficSettledCost = periodCharged inst.id start records
  within : periodPaidBytes inst.id start records + periodOwedBytes inst.id start records ≤
    inst.totalOverage
  worth : ∀ r ∈ records, r.OfPeriod inst.id start →
    r.trafficBytes * inst.trafficUnitPrice ≤ r.amount * (100 * GIB)
  covered : periodBilled inst.id start records * (100 * GIB) ≤
    inst.totalOverage * inst.trafficUnitPrice

namespace PeriodAccount

variable {inst inst' : TrafficInstance} {records' : List TrafficBillingRecord}

/-- A row with the same counters and no less overage. -/
theorem of_row (h : PeriodAccount start records inst) (hid : inst'.id = inst.id)
    (hbytes : inst'.trafficSettledBytes = inst.trafficSettledBytes)
    (hcost : inst'.trafficSettledCost = inst.trafficSettledCost)
    (hprice : inst'.trafficUnitPrice = inst.trafficUnitPrice)
    (hoverage : inst.totalOverage ≤ inst'.totalOverage) : PeriodAccount start records inst' where
  settledBytes := by rw [hbytes, hid, h.settledBytes]
  settledCost := by rw [hcost, hid, h.settledCost]
  within := by
    rw [hid]
    exact h.within.trans (Int.ofNat_le.mpr hoverage)
  worth := by
    rw [hid, hprice]
    exact h.worth
  covered := by
    rw [hid, hprice]
    exact h.covered.trans (mul_le_mul_of_nonneg_right (Int.ofNat_le.mpr hoverage)
      (Int.natCast_nonneg _))

/-- Bills of other instances do not matter. -/
theorem of_records (h : PeriodAccount start records inst)
    (htotal : ∀ column, periodTotal inst.id start column records' =
      periodTotal inst.id start column records)
    (hworth : ∀ r ∈ records', r.OfPeriod inst.id start → r ∈ records) :
    PeriodAccount start records' inst where
  settledBytes := h.settledBytes.trans (htotal _).symm
  settledCost := h.settledCost.trans (htotal _).symm
  within := by
    rw [periodPaidBytes, periodOwedBytes, htotal, htotal]
    exact h.within
  worth := fun r hr hof => h.worth r (hworth r hr hof) hof
  covered := by
    rw [periodBilled, htotal]
    exact h.covered

theorem owedBytes_nonneg (k : ℕ) (start : Time) (records : List TrafficBillingRecord) :
    0 ≤ periodOwedBytes k start records := by
  refine periodTotal_nonneg fun r _ _ => ?_
  split
  · exact Int.natCast_nonneg _
  · exact le_rfl

/-- The settled bytes are among those of the overage. -/
theorem settled_le (h : PeriodAccount start records inst) :
    inst.trafficSettledBytes ≤ inst.totalOverage := by
  have hwithin := h.within
  rw [← h.settledBytes] at hwithin
  have hnonneg := owedBytes_nonneg inst.id start records
  exact_mod_cast (le_add_of_nonneg_right hnonneg).trans hwithin

theorem unsettledBytes_eq (h : PeriodAccount start records inst) :
    (inst.unsettledBytes : ℤ) = inst.totalOverage - inst.trafficSettledBytes :=
  Int.ofNat_sub h.settled_le

/-- The fractions dropped so far are not needed for the amount. -/
def Covers (start : Time) (records : List TrafficBillingRecord) (inst : TrafficInstance)
    (amount : ℕ) : Prop :=
  amount * (100 * GIB) + periodDropped inst.id start records inst.trafficUnitPrice ≤
    inst.unsettledBytes * inst.trafficUnitPrice

instance (start : Time) (records : List TrafficBillingRecord) (inst : TrafficInstance)
    (amount : ℕ) : Decidable (Covers start records inst amount) :=
  inferInstanceAs (Decidable (_ ≤ _))

/-- A bill that is owed is over bytes that are not settled. -/
theorem owed_le (h : PeriodAccount start records inst) (hr : r ∈ records)
    (hof : r.OfPeriod inst.id start) (hpending : r.status = .pending) :
    r.trafficBytes ≤ inst.unsettledBytes := by
  have hle : (if r.status = .pending then (r.trafficBytes : ℤ) else 0) ≤
      periodOwedBytes inst.id start records := by
    refine le_periodTotal (fun r _ _ => ?_) hr hof
    split
    · exact Int.natCast_nonneg _
    · exact le_rfl
  rw [if_pos hpending] at hle
  have hwithin := h.within
  have hunsettled := h.unsettledBytes_eq
  rw [← h.settledBytes] at hwithin
  omega

/-- What is paid does not exceed what is billed. -/
theorem charged_le (h : PeriodAccount start records inst) :
    periodCharged inst.id start records ≤ periodBilled inst.id start records := by
  refine periodTotal_le fun r hr hof => ?_
  split
  · exact le_rfl
  · have hprice := mul_nonneg (Int.natCast_nonneg r.trafficBytes)
      (Int.natCast_nonneg inst.trafficUnitPrice)
    exact nonneg_of_mul_nonneg_left (hprice.trans (h.worth r hr hof)) (by decide)

/-- The settled bytes have been paid for. -/
theorem worth_charged (h : PeriodAccount start records inst) :
    inst.trafficSettledBytes * inst.trafficUnitPrice ≤
      periodCharged inst.id start records * (100 * GIB) := by
  rw [h.settledBytes, periodPaidBytes, periodCharged, ← periodTotal_mul, ← periodTotal_mul]
  refine periodTotal_le fun r hr hof => ?_
  split
  · exact h.worth r hr hof
  · rw [zero_mul, zero_mul]

/-- A new bill, paid at once or not. -/
theorem add_bill {tz now : Time} {db : TrafficBillingDb} {bill : TrafficBillingRecord} {amount : ℕ}
    {f : TrafficInstance → TrafficInstance} (h : PeriodAccount start records inst)
    (hdebt : periodOwedBytes inst.id start records = 0)
    (billOver : BillOver tz db inst.id now inst bill) (hperiod : start ≤ bill.periodStart)
    (hamount : bill.amount = amount) (hcovers : Covers start records inst amount)
    (hf : SettlesFor (if bill.status = .paid then bill.trafficBytes else 0)
      (if bill.status = .paid then bill.amount else 0) f) :
    PeriodAccount start (bill :: records) (f inst) := by
  have hof : bill.OfPeriod inst.id start := ⟨billOver.owner, hperiod⟩
  have hle : (bill.trafficBytes : ℤ) ≤ inst.unsettledBytes :=
    Int.ofNat_le.mpr billOver.le_unsettledBytes
  have hwithin := h.within
  have hsettled := h.settledBytes
  rw [h.unsettledBytes_eq, hsettled] at hle
  constructor
  · rw [hf.id, hf.trafficSettledBytes, periodPaidBytes, periodTotal_cons_of hof, Int.natCast_add,
      hsettled, add_comm]
    refine congrArg (· + _) ?_
    split_ifs <;> rfl
  · rw [hf.id, hf.trafficSettledCost, periodCharged, periodTotal_cons_of hof, h.settledCost,
      add_comm]
    rfl
  · have hsplit : periodPaidBytes inst.id start (bill :: records) +
        periodOwedBytes inst.id start (bill :: records) =
        bill.trafficBytes + periodPaidBytes inst.id start records := by
      rw [periodPaidBytes, periodOwedBytes, periodTotal_cons_of hof, periodTotal_cons_of hof,
        add_add_add_comm, bytes_split]
      show _ + (_ + periodOwedBytes inst.id start records) = _
      rw [hdebt, add_zero]
      rfl
    rw [hf.id, hf.totalOverage, hsplit]
    linarith
  · rw [hf.id, hf.trafficUnitPrice]
    intro r hr hr'
    rcases List.mem_cons.mp hr with rfl | hr
    · rw [billOver.bytes, billOver.amount]
      exact_mod_cast (Nat.div_mul_le_self _ _).trans_eq (Nat.mul_assoc _ _ _)
    · exact h.worth r hr hr'
  · rw [hf.id, hf.totalOverage, hf.trafficUnitPrice, periodBilled, periodTotal_cons_of hof, add_mul]
    show bill.amount * (100 * GIB) + periodBilled inst.id start records * (100 * GIB) ≤ _
    have hbilled := billed_eq inst.id start records inst.trafficUnitPrice
    rw [hdebt, add_zero] at hbilled
    unfold Covers at hcovers
    rw [h.unsettledBytes_eq, hsettled] at hcovers
    rw [hamount, hbilled]
    linarith

/-- A pending bill is paid: what it owed is settled now, if it is of the period. -/
theorem pay_bill {pending : TrafficBillingRecord} {f : TrafficInstance → TrafficInstance}
    {g : TrafficBillingRecord → TrafficBillingRecord} (h : PeriodAccount start records inst)
    (hids : (records.map TrafficBillingRecord.id).Nodup) (hmem : pending ∈ records)
    (hdebt : pending.status = .pending) (howner : pending.instanceId = inst.id)
    (hpaid : (g pending).status = .paid) (hinstance : (g pending).instanceId = pending.instanceId)
    (hperiod : (g pending).periodStart = pending.periodStart)
    (hbytes : (g pending).trafficBytes = pending.trafficBytes)
    (hamount : (g pending).amount = pending.amount)
    (hf : SettlesFor (if pending.periodStart < start then 0 else pending.trafficBytes)
      (if pending.periodStart < start then 0 else pending.amount) f) :
    PeriodAccount start (Keyed.modify TrafficBillingRecord.id pending.id g records) (f inst) := by
  have hsame : (g pending).OfPeriod inst.id start ↔ pending.OfPeriod inst.id start := by
    rw [TrafficBillingRecord.OfPeriod, TrafficBillingRecord.OfPeriod, hinstance, hperiod]
  have hof : pending.OfPeriod inst.id start ↔ ¬pending.periodStart < start := by
    rw [not_lt]
    exact and_iff_right howner
  have hchange : ∀ column : TrafficBillingRecord → ℤ,
      periodTotal inst.id start column
        (Keyed.modify TrafficBillingRecord.id pending.id g records) =
      periodTotal inst.id start column records +
        if pending.periodStart < start then 0 else column (g pending) - column pending := by
    intro column
    rw [periodTotal_modify hids hmem hsame, if_congr hof rfl rfl, ite_not]
  have hpaidBytes : periodPaidBytes inst.id start
      (Keyed.modify TrafficBillingRecord.id pending.id g records) =
      periodPaidBytes inst.id start records +
        if pending.periodStart < start then 0 else (pending.trafficBytes : ℤ) := by
    rw [periodPaidBytes, hchange, hpaid, hdebt, hbytes]
    exact congrArg (_ + ·) (if_congr Iff.rfl rfl (sub_zero _))
  have howedBytes : periodOwedBytes inst.id start
      (Keyed.modify TrafficBillingRecord.id pending.id g records) =
      periodOwedBytes inst.id start records -
        if pending.periodStart < start then 0 else (pending.trafficBytes : ℤ) := by
    rw [periodOwedBytes, hchange, hpaid, hdebt, sub_eq_add_neg]
    refine congrArg (_ + ·) ?_
    by_cases hlt : pending.periodStart < start
    · rw [if_pos hlt, if_pos hlt, neg_zero]
    · rw [if_neg hlt, if_neg hlt]
      exact zero_sub (pending.trafficBytes : ℤ)
  constructor
  · rw [hf.id, hf.trafficSettledBytes, hpaidBytes, ← h.settledBytes]
    split_ifs <;> push_cast <;> rfl
  · rw [hf.id, hf.trafficSettledCost, periodCharged, hchange, hpaid, hdebt, hamount, h.settledCost]
    exact congrArg (_ + ·) (if_congr Iff.rfl rfl (sub_zero _).symm)
  · rw [hf.id, hf.totalOverage, hpaidBytes, howedBytes, add_add_sub_cancel]
    exact h.within
  · rw [hf.id, hf.trafficUnitPrice]
    intro r hr hr'
    obtain ⟨r, hmem', rfl⟩ := Keyed.mem_modify.mp hr
    split_ifs at hr' ⊢ with hid
    · obtain rfl : r = pending := List.inj_on_of_nodup_map hids hmem' hmem hid
      rw [hbytes, hamount]
      exact h.worth r hmem (hsame.mp hr')
    · exact h.worth r hmem' hr'
  · rw [hf.id, hf.totalOverage, hf.trafficUnitPrice, periodBilled, hchange, hamount, sub_self,
      ite_self, add_zero]
    exact h.covered

end PeriodAccount

/-! ## Bills and logs -/

/-- Every paid bill has a log of its amount, every log is that of one bill, and a pending bill has
none. -/
structure BillLogs (records : List TrafficBillingRecord) (logs : List BalanceLog) : Prop where
  logIds : (logs.map BalanceLog.id).Nodup
  matched : (records.filterMap TrafficBillingRecord.balanceLogId).Perm (logs.map BalanceLog.id)
  unpaid : ∀ r ∈ records, r.status = .pending → r.balanceLogId = none
  paid : ∀ r ∈ records, r.status = .paid → ∃ log ∈ logs, r.balanceLogId = some log.id ∧
    log.type = .consume ∧ log.instanceId = some r.instanceId ∧ log.amount = -toUnits r.amount
  exact : ∀ log ∈ logs, log.balanceAfter = log.balanceBefore + log.amount

namespace BillLogs

variable {logs : List BalanceLog} {log : BalanceLog} {db db' : TrafficBillingDb} {userId j : ℕ}
  {bill : TrafficBillingRecord}

theorem owe (h : BillLogs records logs) (hpending : bill.status = .pending)
    (hnone : bill.balanceLogId = none) : BillLogs (bill :: records) logs where
  logIds := h.logIds
  matched := by
    rw [List.filterMap_cons_none hnone]
    exact h.matched
  unpaid := by
    intro r hr hstatus
    rcases List.mem_cons.mp hr with rfl | hr
    · exact hnone
    · exact h.unpaid r hr hstatus
  paid := by
    intro r hr hstatus
    rcases List.mem_cons.mp hr with rfl | hr
    · rw [hpending] at hstatus
      cases hstatus
    · exact h.paid r hr hstatus
  exact := h.exact

/-- The log of a debit is new. -/
theorem nodup_debit (h : BillLogs records db.balanceLogs)
    (hold : ∀ log ∈ db.balanceLogs, log.id < db.nextId)
    (hdebit : Debits db db' userId j (toUnits bill.amount) log) :
    ((log :: db.balanceLogs).map BalanceLog.id).Nodup := by
  rw [List.map_cons, List.nodup_cons]
  refine ⟨fun hmem => ?_, h.logIds⟩
  obtain ⟨old, hmem, hid⟩ := List.mem_map.mp hmem
  exact (hold old hmem).ne (hid.trans hdebit.id)

theorem exact_debit (h : BillLogs records db.balanceLogs)
    (hdebit : Debits db db' userId j (toUnits bill.amount) log) :
    ∀ l ∈ log :: db.balanceLogs, l.balanceAfter = l.balanceBefore + l.amount := by
  intro l hl
  rcases List.mem_cons.mp hl with rfl | hl
  · rw [hdebit.after, hdebit.taken, sub_eq_add_neg]
  · exact h.exact l hl

theorem charge (h : BillLogs records db.balanceLogs)
    (hold : ∀ log ∈ db.balanceLogs, log.id < db.nextId)
    (hdebit : Debits db db' userId bill.instanceId (toUnits bill.amount) log)
    (hpaid : bill.status = .paid) (hlog : bill.balanceLogId = some log.id) :
    BillLogs (bill :: records) db'.balanceLogs := by
  rw [hdebit.logs]
  refine ⟨h.nodup_debit hold hdebit, ?_, ?_, ?_, h.exact_debit hdebit⟩
  · rw [List.filterMap_cons_some hlog, List.map_cons]
    exact h.matched.cons _
  · intro r hr hstatus
    rcases List.mem_cons.mp hr with rfl | hr
    · rw [hpaid] at hstatus
      cases hstatus
    · exact h.unpaid r hr hstatus
  · intro r hr hstatus
    rcases List.mem_cons.mp hr with rfl | hr
    · exact ⟨log, List.mem_cons_self, hlog, hdebit.type, hdebit.owner.2, hdebit.taken⟩
    · obtain ⟨old, hmem, hold⟩ := h.paid r hr hstatus
      exact ⟨old, List.mem_cons_of_mem _ hmem, hold⟩

theorem pay {pending : TrafficBillingRecord} {g : TrafficBillingRecord → TrafficBillingRecord}
    (h : BillLogs records db.balanceLogs)
    (hids : (records.map TrafficBillingRecord.id).Nodup) (hmem : pending ∈ records)
    (hold : ∀ log ∈ db.balanceLogs, log.id < db.nextId)
    (hdebit : Debits db db' userId pending.instanceId (toUnits pending.amount) log)
    (hdebt : pending.status = .pending) (hpaid : (g pending).status = .paid)
    (hlog : (g pending).balanceLogId = some log.id)
    (hinstance : (g pending).instanceId = pending.instanceId)
    (hamount : (g pending).amount = pending.amount) :
    BillLogs (Keyed.modify TrafficBillingRecord.id pending.id g records) db'.balanceLogs := by
  -- what the bills are after the rewrite: the paid one, and the others as they were
  have hbills : ∀ r ∈ Keyed.modify TrafficBillingRecord.id pending.id g records,
      r = g pending ∨ r ∈ records := by
    intro r hr
    obtain ⟨r, hr', rfl⟩ := Keyed.mem_modify.mp hr
    split_ifs with hid
    · exact .inl (congrArg g (List.inj_on_of_nodup_map hids hr' hmem hid))
    · exact .inr hr'
  rw [hdebit.logs]
  refine ⟨h.nodup_debit hold hdebit, ?_, ?_, ?_, h.exact_debit hdebit⟩
  · refine (Keyed.filterMap_modify hids hmem (h.unpaid pending hmem hdebt)).trans ?_
    rw [hlog, List.map_cons]
    exact h.matched.cons _
  · intro r hr hstatus
    rcases hbills r hr with rfl | hr
    · rw [hpaid] at hstatus
      cases hstatus
    · exact h.unpaid r hr hstatus
  · intro r hr hstatus
    rcases hbills r hr with rfl | hr
    · rw [hinstance, hamount]
      exact ⟨log, List.mem_cons_self, hlog, hdebit.type, hdebit.owner.2, hdebit.taken⟩
    · obtain ⟨old, hmem, hold⟩ := h.paid r hr hstatus
      exact ⟨old, List.mem_cons_of_mem _ hmem, hold⟩

end BillLogs

/-! ## The invariant of a period -/

structure ChargeInv (k : ℕ) (start : Time) (db : TrafficBillingDb) : Prop where
  instanceIds : (db.instances.map TrafficInstance.id).Nodup
  recordIds : (db.records.map TrafficBillingRecord.id).Nodup
  recordsOld : ∀ r ∈ db.records, r.id < db.nextId
  logsOld : ∀ log ∈ db.balanceLogs, log.id < db.nextId
  logs : BillLogs db.records db.balanceLogs
  account : ∀ inst ∈ db.instances, inst.id = k → PeriodAccount start db.records inst

/-- The beginning of a period: nothing is settled, and all bills of the instance are earlier
ones. -/
structure TrafficPeriodStart (k : ℕ) (start : Time) (db : TrafficBillingDb) : Prop where
  instanceIds : (db.instances.map TrafficInstance.id).Nodup
  recordIds : (db.records.map TrafficBillingRecord.id).Nodup
  recordsOld : ∀ r ∈ db.records, r.id < db.nextId
  logsOld : ∀ log ∈ db.balanceLogs, log.id < db.nextId
  logs : BillLogs db.records db.balanceLogs
  counters : ∀ inst ∈ db.instances, inst.id = k →
    inst.trafficSettledBytes = 0 ∧ inst.trafficSettledCost = 0
  earlier : ∀ r ∈ db.records, r.instanceId = k → r.periodStart < start

theorem periodTotal_eq_zero (h : ∀ r ∈ records, r.OfPeriod k start → g r = 0) :
    periodTotal k start g records = 0 := by
  refine Keyed.total_eq_zero fun r hr => ?_
  split
  · rename_i hof
    exact h r hr hof
  · rfl

theorem TrafficPeriodStart.inv {db : TrafficBillingDb} (h : TrafficPeriodStart k start db) :
    ChargeInv k start db where
  instanceIds := h.instanceIds
  recordIds := h.recordIds
  recordsOld := h.recordsOld
  logsOld := h.logsOld
  logs := h.logs
  account := by
    intro inst hinst hk
    obtain ⟨hbytes, hcost⟩ := h.counters inst hinst hk
    have hnone : ∀ r ∈ db.records, ¬r.OfPeriod inst.id start := fun r hr hof =>
      (h.earlier r hr (hof.1.trans hk)).not_ge hof.2
    have hzero : ∀ column, periodTotal inst.id start column db.records = 0 := fun column =>
      periodTotal_eq_zero fun r hr hof => absurd hof (hnone r hr)
    refine ⟨?_, ?_, ?_, fun r hr hof => absurd hof (hnone r hr), ?_⟩
    · rw [hbytes, periodPaidBytes, hzero]
      rfl
    · rw [hcost, periodCharged, hzero]
    · rw [periodPaidBytes, periodOwedBytes, hzero, hzero]
      exact Int.natCast_nonneg _
    · rw [periodBilled, hzero, zero_mul]
      exact mul_nonneg (Int.natCast_nonneg _) (Int.natCast_nonneg _)

/-! ## One transaction -/

section Step

variable {tz now : Time} {j : ℕ} {payable : Option TrafficBillingRecord} {billable : ℕ}
  {db db' : TrafficBillingDb} {f : TrafficInstance → TrafficInstance} {inst : TrafficInstance}
  {bill : TrafficBillingRecord}

theorem owedBytes_of_noDebt (h : db.pendingRecord k = none) :
    periodOwedBytes k start db.records = 0 := by
  refine periodTotal_eq_zero fun r hr hof => if_neg fun hpending => ?_
  have hnot := List.find?_eq_none.mp h r hr
  rw [hof.1, hpending] at hnot
  simp at hnot

namespace ChargeInv

theorem instanceIds_modify (h : ChargeInv k start db) (hf : ∀ inst, (f inst).id = inst.id)
    (instances : db'.instances = Keyed.modify TrafficInstance.id j f db.instances) :
    (db'.instances.map TrafficInstance.id).Nodup := by
  rw [instances, Keyed.map_key_modify hf]
  exact h.instanceIds

/-- The account of the instance after a transaction on `j`: that of the row that `j` finds, or
one that only sees bills of another instance. -/
theorem account_modify (h : ChargeInv k start db) (found : db.findInstance j = some inst)
    (instances : db'.instances = Keyed.modify TrafficInstance.id j f db.instances)
    (hid : ∀ inst, (f inst).id = inst.id)
    (hself : j = k → PeriodAccount start db.records inst →
      PeriodAccount start db'.records (f inst))
    (hother : j ≠ k → ∀ inst, PeriodAccount start db.records inst → inst.id = k →
      PeriodAccount start db'.records inst) :
    ∀ inst ∈ db'.instances, inst.id = k → PeriodAccount start db'.records inst := by
  intro inst' hmem hk
  rw [instances] at hmem
  obtain ⟨row, hrow, rfl⟩ := Keyed.mem_modify.mp hmem
  split_ifs at hk ⊢ with hj
  · rw [hid] at hk
    have hsame : row = inst := by
      have hlookup := Keyed.lookup_of_mem h.instanceIds hrow
      rw [hj] at hlookup
      exact Option.some.inj (hlookup.symm.trans found)
    subst hsame
    exact hself (hj.symm.trans hk) (h.account row hrow hk)
  · exact hother (fun he => hj (hk.trans he.symm)) row (h.account row hrow hk) hk

/-- The bill is of the period when its transaction is. -/
theorem add_bill (h : ChargeInv k start db) (found : db.findInstance j = some inst)
    (noDebt : db.pendingRecord j = none) (billOver : BillOver tz db j now inst bill)
    (billed : bill.amount = billable) (positive : 0 < billable)
    (hperiod : j = k → db.trafficPeriodStart tz inst now = start)
    (hcovers : j = k → 0 < billable → PeriodAccount.Covers start db.records inst billable)
    (hf : SettlesFor (if bill.status = .paid then bill.trafficBytes else 0)
      (if bill.status = .paid then bill.amount else 0) f)
    (instances : db'.instances = Keyed.modify TrafficInstance.id j f db.instances)
    (records : db'.records = bill :: db.records) :
    ∀ inst ∈ db'.instances, inst.id = k → PeriodAccount start db'.records inst := by
  have hid : inst.id = j := (Keyed.mem_of_lookup found).2
  refine h.account_modify found instances hf.id ?_ ?_
  · rintro rfl haccount
    rw [records]
    subst hid
    exact haccount.add_bill (owedBytes_of_noDebt noDebt) billOver
      ((hperiod rfl).symm.trans_le billOver.period) billed (hcovers rfl positive) hf
  · intro hne row haccount hk
    rw [records]
    have hnot : ¬bill.OfPeriod row.id start := fun hof =>
      hne (billOver.owner.symm.trans (hof.1.trans hk))
    refine haccount.of_records (fun column => periodTotal_cons_of_not hnot) fun r hr hof => ?_
    rcases List.mem_cons.mp hr with rfl | hr
    · exact absurd hof hnot
    · exact hr

theorem fresh_record (h : ChargeInv k start db) (hfresh : db.nextId ≤ bill.id) :
    ((bill :: db.records).map TrafficBillingRecord.id).Nodup := by
  rw [List.map_cons, List.nodup_cons]
  refine ⟨fun hmem => ?_, h.recordIds⟩
  obtain ⟨r, hr, hid⟩ := List.mem_map.mp hmem
  exact (h.recordsOld r hr).not_ge (hfresh.trans hid.ge)

/-- A billing transaction keeps the books. -/
theorem done (h : ChargeInv k start db)
    (hdone : BillingDone tz j now payable billable db db')
    (hperiod : ∀ inst, db.findInstance j = some inst → j = k →
      db.trafficPeriodStart tz inst now = start)
    (hcovers : ∀ inst, db.findInstance j = some inst → j = k → 0 < billable →
      PeriodAccount.Covers start db.records inst billable) : ChargeInv k start db' := by
  cases hdone with
  | idle hf instances _ _ records logs nextId =>
    refine ⟨h.instanceIds_modify hf.id instances, ?_, ?_, ?_, ?_, ?_⟩
    · rw [records]
      exact h.recordIds
    · rw [records, nextId]
      exact h.recordsOld
    · rw [logs, nextId]
      exact h.logsOld
    · rw [records, logs]
      exact h.logs
    · intro inst' hmem hk
      rw [instances] at hmem
      obtain ⟨row, hrow, rfl⟩ := Keyed.mem_modify.mp hmem
      rw [records]
      split_ifs at hk ⊢
      · rw [hf.id] at hk
        exact (h.account row hrow hk).of_row (hf.id row) (hf.trafficSettledBytes row)
          ((hf.trafficSettledCost row).trans (add_zero _)) (hf.trafficUnitPrice row)
          (hf.totalOverage row).ge
      · exact h.account row hrow hk
  | @owe f inst bill hf found noDebt billOver billed positive unpaid fresh instances _ _ records logs
      nextId =>
    refine ⟨h.instanceIds_modify hf.id instances, ?_, ?_, ?_, ?_, ?_⟩
    · rw [records]
      exact h.fresh_record fresh.ge
    · rw [records, nextId]
      exact Keyed.below_cons h.recordsOld (Nat.le_succ _) (fresh ▸ Nat.lt_succ_self _)
    · rw [logs, nextId]
      exact fun log hlog => (h.logsOld log hlog).trans (Nat.lt_succ_self _)
    · rw [records, logs]
      exact h.logs.owe unpaid.1 unpaid.2
    · have hf' : SettlesFor (if bill.status = .paid then bill.trafficBytes else 0)
          (if bill.status = .paid then bill.amount else 0) f := by
        rw [unpaid.1]
        exact hf
      exact h.add_bill found noDebt billOver billed positive (hperiod inst found) (hcovers inst found)
        hf' instances records
  | @charge f inst bill log hf found noDebt billOver billed positive paid fresh instances _ records
      nextId debit =>
    refine ⟨h.instanceIds_modify hf.id instances, ?_, ?_, ?_, ?_, ?_⟩
    · rw [records]
      exact h.fresh_record ((Nat.le_succ _).trans fresh.ge)
    · rw [records, nextId]
      exact Keyed.below_cons h.recordsOld (by omega) (fresh ▸ Nat.lt_succ_self _)
    · rw [debit.logs, nextId]
      exact Keyed.below_cons h.logsOld (by omega) (debit.id ▸ by omega)
    · rw [records]
      rw [← billOver.owner] at debit
      exact h.logs.charge h.logsOld debit paid.1 paid.2
    · have hf' : SettlesFor (if bill.status = .paid then bill.trafficBytes else 0)
          (if bill.status = .paid then bill.amount else 0) f := by
        rw [paid.1]
        exact hf
      exact h.add_bill found noDebt billOver billed positive (hperiod inst found) (hcovers inst found)
        hf' instances records
  | @pay f inst pending g log hf found chosen mem debt owner hg paid instances _ records nextId
      debit =>
    have hid : inst.id = j := (Keyed.mem_of_lookup found).2
    have hamount : (g pending).amount = pending.amount := by rw [paid]
    have hbytes : (g pending).trafficBytes = pending.trafficBytes := by rw [paid]
    have hstart : (g pending).periodStart = pending.periodStart := by rw [paid]
    have hlog : (g pending).balanceLogId = some log.id := by rw [paid]
    refine ⟨h.instanceIds_modify hf.id instances, ?_, ?_, ?_, ?_, ?_⟩
    · rw [records, Keyed.map_key_modify fun r => (hg r).1]
      exact h.recordIds
    · rw [records, nextId]
      intro r' hr'
      obtain ⟨r, hr, rfl⟩ := Keyed.mem_modify.mp hr'
      have hold := (h.recordsOld r hr).trans (Nat.lt_succ_self _)
      split_ifs
      · rwa [(hg r).1]
      · exact hold
    · rw [debit.logs, nextId]
      exact Keyed.below_cons h.logsOld (Nat.le_succ _) (debit.id ▸ Nat.lt_succ_self _)
    · rw [records]
      rw [← owner] at debit
      exact h.logs.pay h.recordIds mem h.logsOld debit debt (hg pending).2.2
        hlog (hg pending).2.1 hamount
    · refine h.account_modify found instances hf.id ?_ ?_
      · rintro rfl haccount
        rw [hperiod inst found rfl] at hf
        rw [records]
        exact haccount.pay_bill h.recordIds mem debt (owner.trans hid.symm) (hg pending).2.2
          (hg pending).2.1 hstart hbytes hamount hf
      · intro hne row haccount hk
        have hnot : ¬pending.OfPeriod row.id start := fun hof =>
          hne (owner.symm.trans (hof.1.trans hk))
        have hnot' : ¬(g pending).OfPeriod row.id start := fun hof =>
          hne (owner.symm.trans ((hg pending).2.1.symm.trans (hof.1.trans hk)))
        rw [records]
        refine haccount.of_records (fun column => ?_) fun r' hr' hof => ?_
        · rw [periodTotal_modify h.recordIds mem (iff_of_false hnot' hnot), if_neg hnot, add_zero]
        · obtain ⟨r, hr, rfl⟩ := Keyed.mem_modify.mp hr'
          split_ifs at hof ⊢ with hsame
          · obtain rfl := List.inj_on_of_nodup_map h.recordIds hr mem hsame
            exact absurd hof hnot'
          · exact hr

end ChargeInv

end Step

/-! ## Runs within a period -/

/-- The event is within the period from `start` on: its time is, and the counters are not reset. -/
def TrafficInPeriod (tz : Time) (k : ℕ) (start : Time) (w : TrafficWorld) :
    TrafficBillingEvent → Bool
  | .settle j now _ | .payPending j _ now =>
      j != k || (w.db.findInstance k).all fun inst => w.db.trafficPeriodStart tz inst now == start
  | .reset path => !(w.db.findInstance k).any path.reaches
  | _ => true

/-- A bill that the event makes has an amount that is reached without the fractions of bytes
that the bills before have dropped. -/
def FractionsCovered (k : ℕ) (start : Time) (w : TrafficWorld) : TrafficBillingEvent → Bool
  | .settle j now trigger =>
      j != k || (w.db.findInstance k).all fun inst =>
        w.db.amountBilled k now trigger == 0 ||
          decide (PeriodAccount.Covers start w.db.records inst (w.db.amountBilled k now trigger))
  | _ => true

/-- What one event does to the instance and its bills: it settles at most the unsettled bytes, it
leaves a paid bill alone and keeps what a pending one is over, and it debits a wallet with a log of
its own or not at all. -/
structure EventExact (k : ℕ) (db db' : TrafficBillingDb) : Prop where
  settled : ∀ inst ∈ db.instances, ∀ inst' ∈ db'.instances, inst.id = k → inst'.id = k →
    inst'.trafficSettledBytes ≤ inst.trafficSettledBytes + inst.unsettledBytes
  bills : ∀ r ∈ db.records, r ∈ db'.records ∨ r.status = .pending ∧ ∃ r' ∈ db'.records,
    r'.id = r.id ∧ r'.status = .paid ∧ r'.trafficBytes = r.trafficBytes ∧ r'.amount = r.amount
  debit : db'.balanceLogs = db.balanceLogs ∨ ∃ log, db'.balanceLogs = log :: db.balanceLogs ∧
    db.balance log.userId = some log.balanceBefore ∧
    db'.balance = Function.update db.balance log.userId (some log.balanceAfter)

/-- The bills of instance `k` in the period from `start` on, as they should be.  Amounts are
compared with prices in the unit in which a cent is 100 GiB. -/
structure ChargedExactly (tz : Time) (k : ℕ) (start : Time) (w : TrafficWorld) : Prop where
  bytes : ∀ inst ∈ w.db.instances, inst.id = k →
    inst.trafficSettledBytes ≤ inst.totalOverage ∧
    ∀ r ∈ w.db.records, r.OfPeriod k start → r.status = .pending →
      r.trafficBytes ≤ inst.unsettledBytes
  logs : BillLogs w.db.records w.db.balanceLogs
  events : ∀ event w', TrafficInPeriod tz k start w event = true →
    trafficBillingStep tz w event = some w' → EventExact k w.db w'.db
  amounts : ∀ inst ∈ w.db.instances, inst.id = k →
    inst.trafficSettledCost = periodCharged k start w.db.records ∧
    periodCharged k start w.db.records * (100 * GIB) ≤ inst.totalOverage * inst.trafficUnitPrice ∧
    inst.totalOverage * inst.trafficUnitPrice <
      (periodCharged k start w.db.records + 1) * (100 * GIB) +
        inst.unsettledBytes * inst.trafficUnitPrice

section Runs

variable {tz now : Time} {w w' : TrafficWorld} {event : TrafficBillingEvent} {j : ℕ}
  {payable : Option TrafficBillingRecord} {billable : ℕ} {db db' : TrafficBillingDb}

theorem periodStart_of_inPeriod {trigger : SettlementTrigger}
    (h : TrafficInPeriod tz k start w (.settle j now trigger) = true) :
    ∀ inst, w.db.findInstance j = some inst → j = k →
      w.db.trafficPeriodStart tz inst now = start := by
  rintro inst found rfl
  simpa [TrafficInPeriod, found] using h

/-- Only the counters of the instance that an update addresses change. -/
theorem ChargeInv.of_updateInstance {f : TrafficInstance → TrafficInstance}
    (h : ChargeInv k start db) (hid : ∀ inst, (f inst).id = inst.id)
    (hbytes : ∀ inst, (f inst).trafficSettledBytes = inst.trafficSettledBytes)
    (hcost : ∀ inst, (f inst).trafficSettledCost = inst.trafficSettledCost)
    (hprice : ∀ inst, (f inst).trafficUnitPrice = inst.trafficUnitPrice)
    (hoverage : ∀ inst, inst.totalOverage ≤ (f inst).totalOverage) :
    ChargeInv k start (db.updateInstance j f) := by
  refine ⟨h.instanceIds_modify hid rfl, h.recordIds, h.recordsOld, h.logsOld, h.logs, ?_⟩
  intro inst' hmem hk
  obtain ⟨row, hrow, rfl⟩ := Keyed.mem_modify.mp hmem
  split_ifs at hk ⊢
  · rw [hid] at hk
    exact (h.account row hrow hk).of_row (hid row) (hbytes row) (hcost row) (hprice row)
      (hoverage row)
  · exact h.account row hrow hk

theorem ChargeInv.reset {path : ResetPath} (h : ChargeInv k start db)
    (hnot : (db.findInstance k).any path.reaches = false) :
    ChargeInv k start (resetMonthlyTraffic path db) := by
  refine ⟨?_, h.recordIds, h.recordsOld, h.logsOld, h.logs, ?_⟩
  · rw [instanceIds_reset]
    exact h.instanceIds
  · intro inst' hmem hk
    obtain ⟨row, hrow, rfl⟩ := List.mem_map.mp hmem
    split_ifs at hk ⊢ with hreach
    · have hid : row.id = k := hk
      have hfound : db.findInstance k = some row := hid ▸ Keyed.lookup_of_mem h.instanceIds hrow
      rw [hfound] at hnot
      exact absurd hreach (by simpa using hnot)
    · exact h.account row hrow hk

theorem ChargeInv.step (h : ChargeInv k start w.db)
    (hin : TrafficInPeriod tz k start w event = true)
    (hcovered : FractionsCovered k start w event = true)
    (hs : trafficBillingStep tz w event = some w') : ChargeInv k start w'.db := by
  cases event with
  | accrue instanceId delta =>
    cases hs
    refine h.of_updateInstance (fun _ => rfl) (fun _ => rfl) (fun _ => rfl) (fun _ => rfl)
      fun inst => ?_
    simp only [TrafficInstance.totalOverage, TrafficInstance.accrue]
    omega
  | settle j now trigger =>
    cases hs
    refine h.done settleInstance_done (periodStart_of_inPeriod hin) ?_
    rintro inst found rfl hpos
    simp only [FractionsCovered, found] at hcovered
    simpa [hpos.ne'] using hcovered
  | payPending j userId now =>
    simp only [trafficBillingStep] at hs
    split at hs
    · rename_i db amount hpay
      cases hs
      refine h.done (payPendingTrafficBill_done hpay) ?_ fun _ _ _ hpos =>
        absurd hpos (lt_irrefl 0)
      rintro inst found rfl
      simpa [TrafficInPeriod, found] using hin
    · cases hs
  | reset path =>
    cases hs
    exact h.reset (by simpa [TrafficInPeriod] using hin)
  | setBalance userId balance =>
    cases hs
    exact ⟨h.instanceIds, h.recordIds, h.recordsOld, h.logsOld, h.logs, h.account⟩
  | setStatus instanceId status suspendReason =>
    cases hs
    exact h.of_updateInstance (fun _ => rfl) (fun _ => rfl) (fun _ => rfl) (fun _ => rfl)
      fun _ => le_rfl

/-! ## What an event does -/

/-- A transaction on `j` that adds `d` settled bytes adds no more than are unsettled. -/
theorem settled_le_of_modify {d : ℕ} {f : TrafficInstance → TrafficInstance}
    (h : ChargeInv k start db)
    (instances : db'.instances = Keyed.modify TrafficInstance.id j f db.instances)
    (hid : ∀ inst, (f inst).id = inst.id)
    (hsettled : ∀ inst, (f inst).trafficSettledBytes = inst.trafficSettledBytes + d)
    (hd : j = k → ∀ inst, db.findInstance j = some inst → d ≤ inst.unsettledBytes) :
    ∀ inst ∈ db.instances, ∀ inst' ∈ db'.instances, inst.id = k → inst'.id = k →
      inst'.trafficSettledBytes ≤ inst.trafficSettledBytes + inst.unsettledBytes := by
  intro inst hinst inst' hmem hk hk'
  rw [instances] at hmem
  obtain ⟨row, hrow, rfl⟩ := Keyed.mem_modify.mp hmem
  have hrowid : row.id = k := by
    split_ifs at hk'
    · exact (hid row).symm.trans hk'
    · exact hk'
  obtain rfl : row = inst :=
    List.inj_on_of_nodup_map h.instanceIds hrow hinst (hrowid.trans hk.symm)
  split_ifs with hj
  · rw [hsettled]
    exact Nat.add_le_add_left
      (hd (hj.symm.trans hk) row (hj ▸ Keyed.lookup_of_mem h.instanceIds hrow)) _
  · exact Nat.le_add_right _ _

theorem eventExact_of_same (h : ChargeInv k start db)
    (instances : ∀ inst' ∈ db'.instances, inst'.id = k → inst' ∈ db.instances)
    (records : db'.records = db.records) (logs : db'.balanceLogs = db.balanceLogs) :
    EventExact k db db' where
  settled := by
    intro inst hinst inst' hinst' hk hk'
    obtain rfl : inst' = inst := List.inj_on_of_nodup_map h.instanceIds
      (instances inst' hinst' hk') hinst (hk'.trans hk.symm)
    exact Nat.le_add_right _ _
  bills r hr := .inl (records ▸ hr)
  debit := .inl logs

theorem BillingDone.eventExact (hdone : BillingDone tz j now payable billable db db')
    (h : ChargeInv k start db)
    (hperiod : ∀ inst, db.findInstance j = some inst → j = k →
      db.trafficPeriodStart tz inst now = start) : EventExact k db db' := by
  cases hdone with
  | idle hf instances _ _ records logs _ =>
    exact ⟨settled_le_of_modify h instances hf.id hf.trafficSettledBytes
      fun _ _ _ => Nat.zero_le _, fun r hr => .inl (records ▸ hr), .inl logs⟩
  | owe hf found _ billOver _ _ unpaid _ instances _ _ records logs _ =>
    exact ⟨settled_le_of_modify h instances hf.id hf.trafficSettledBytes
      fun _ _ _ => Nat.zero_le _, fun r hr => .inl (records ▸ List.mem_cons_of_mem _ hr), .inl logs⟩
  | @charge f inst bill log hf found _ billOver _ _ _ _ instances _ records _ debit =>
    refine ⟨settled_le_of_modify h instances hf.id hf.trafficSettledBytes fun _ row hrow => ?_,
      fun r hr => .inl (records ▸ List.mem_cons_of_mem _ hr),
      .inr ⟨log, debit.logs, debit.owner.1 ▸ debit.before.1, debit.owner.1 ▸ debit.balance⟩⟩
    obtain rfl : inst = row := Option.some.inj (found.symm.trans hrow)
    exact billOver.le_unsettledBytes
  | @pay f inst pending g log hf found _ mem debt owner hg paid instances _ records _ debit =>
    refine ⟨settled_le_of_modify h instances hf.id hf.trafficSettledBytes fun hj row hrow => ?_,
      fun r hr => ?_,
      .inr ⟨log, debit.logs, debit.owner.1 ▸ debit.before.1, debit.owner.1 ▸ debit.balance⟩⟩
    · obtain rfl : inst = row := Option.some.inj (found.symm.trans hrow)
      obtain ⟨hinst, hid⟩ := Keyed.mem_of_lookup found
      rw [hperiod inst found hj]
      split
      · exact Nat.zero_le _
      · rename_i hperiod'
        exact (h.account inst hinst (hid.trans hj)).owed_le mem
          ⟨owner.trans hid.symm, not_lt.mp hperiod'⟩ debt
    · by_cases hid : r.id = pending.id
      · obtain rfl := List.inj_on_of_nodup_map h.recordIds hr mem hid
        refine .inr ⟨debt, g r, ?_, (hg r).1, (hg r).2.2, by rw [paid], by rw [paid]⟩
        rw [records]
        exact Keyed.mem_modify.mpr ⟨r, mem, (if_pos rfl).symm⟩
      · refine .inl ?_
        rw [records]
        exact Keyed.mem_modify_of_ne hr hid rfl

theorem ChargeInv.eventExact (h : ChargeInv k start w.db)
    (hin : TrafficInPeriod tz k start w event = true)
    (hs : trafficBillingStep tz w event = some w') : EventExact k w.db w'.db := by
  cases event with
  | accrue instanceId delta =>
    cases hs
    exact ⟨settled_le_of_modify h rfl (fun _ => rfl) (fun _ => (Nat.add_zero _).symm)
      fun _ _ _ => Nat.zero_le _, fun r hr => .inl hr, .inl rfl⟩
  | settle j now trigger =>
    cases hs
    exact settleInstance_done.eventExact h (periodStart_of_inPeriod hin)
  | payPending j userId now =>
    simp only [trafficBillingStep] at hs
    split at hs
    · rename_i db amount hpay
      cases hs
      refine (payPendingTrafficBill_done hpay).eventExact h ?_
      rintro inst found rfl
      simpa [TrafficInPeriod, found] using hin
    · cases hs
  | reset path =>
    cases hs
    refine eventExact_of_same h (fun inst' hmem hk => ?_) rfl rfl
    obtain ⟨row, hrow, rfl⟩ := List.mem_map.mp hmem
    split_ifs at hk ⊢ with hreach
    · have hfound : w.db.findInstance k = some row :=
        (show row.id = k from hk) ▸ Keyed.lookup_of_mem h.instanceIds hrow
      simp [TrafficInPeriod, hfound, hreach] at hin
    · exact hrow
  | setBalance userId balance =>
    cases hs
    exact eventExact_of_same h (fun _ hmem _ => hmem) rfl rfl
  | setStatus instanceId status suspendReason =>
    cases hs
    exact ⟨settled_le_of_modify h rfl (fun _ => rfl) (fun _ => (Nat.add_zero _).symm)
      fun _ _ _ => Nat.zero_le _, fun r hr => .inl hr, .inl rfl⟩

theorem ChargeInv.exact (h : ChargeInv k start w.db) : ChargedExactly tz k start w where
  bytes := by
    rintro inst hinst rfl
    have haccount := h.account inst hinst rfl
    exact ⟨haccount.settled_le, fun r hr hof hpending => haccount.owed_le hr hof hpending⟩
  logs := h.logs
  events := fun event w' hin hs => h.eventExact hin hs
  amounts := by
    rintro inst hinst rfl
    have haccount := h.account inst hinst rfl
    refine ⟨haccount.settledCost, ?_, ?_⟩
    · exact (mul_le_mul_of_nonneg_right haccount.charged_le (by decide)).trans haccount.covered
    · have hworth := haccount.worth_charged
      have hsplit : (inst.totalOverage : ℤ) =
          inst.trafficSettledBytes + inst.unsettledBytes := by
        rw [haccount.unsettledBytes_eq]
        exact (add_sub_cancel _ _).symm
      have hgib : (0 : ℤ) < GIB := by decide
      rw [hsplit, add_mul, add_mul]
      linarith

/-- An instance at three cents per GiB beyond nothing included, its owner with one yuan. -/
def cheapStart : TrafficWorld where
  db :=
    { instances := [{ usageInstance with trafficUnitPrice := 300 }]
      trafficResetDay := fun _ => 1
      balance := fun userId => if userId = 1 then some 100000000 else none
      records := []
      balanceLogs := []
      nextId := 1 }
  outlived := []

theorem cheapStart_start : TrafficPeriodStart 1 resetMidnight cheapStart.db where
  instanceIds := List.nodup_singleton _
  recordIds := List.nodup_nil
  recordsOld := fun _ hr => (by cases hr)
  logsOld := fun _ hlog => (by cases hlog)
  logs := ⟨List.nodup_nil, .refl _, fun _ hr => (by cases hr), fun _ hr => (by cases hr),
    fun _ hlog => (by cases hlog)⟩
  counters := by
    intro inst hinst _
    rw [List.mem_singleton.mp hinst]
    exact ⟨rfl, rfl⟩
  earlier := fun _ hr => (by cases hr)

end Runs

end Incudal
