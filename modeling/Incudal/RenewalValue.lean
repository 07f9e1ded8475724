/-
# `RenewalValue` — the period that a renewal pays for

A renewal moves the expiry from the present one, or from now if that is over;
its billing record starts at the present expiry in either case.  The record of
an instance that has expired covers the time since then as well, so that a part
of what was just paid counts as used up (`renewal_covers_months_iff`).
-/
import Incudal.Charges

namespace Incudal

/-! ## What a record is worth -/

/-- What a charge is valued at before refunds are offset against it. -/
def BillingRecord.remainingUserValue (record : BillingRecord) (now : Time) : ℚ :=
  (record.toValue none).remainingRatio now * (record.toValue none).netUserAmount

section Value

variable {db : Db} {now : Time} {ids : List ℕ}

theorem weigh_map {β : Type*} (bs : List β) (f g : β → ℚ) :
    Fifo.weigh (bs.map f) (bs.map g) = (bs.map fun b => f b * g b).sum := by
  induction bs with
  | nil => simp
  | cons b bs ih => simp [ih]

/-- Without refunds to offset, the charges of a lineage are worth what each is. -/
theorem remainingValue_billingValues (db : Db) (now : Time) (ids : List ℕ) :
    remainingValue now (billingValues db ids)
      = ((db.billingRecords.filter fun r => decide (r.instanceId ∈ ids) && r.isCharge).map
          (·.remainingUserValue now)).sum := by
  have hperm : List.Perm (chargesInOrder ids db.billingRecords)
      (db.billingRecords.filter fun r => decide (r.instanceId ∈ ids) && r.isCharge) :=
    List.perm_insertionSort _ _
  rw [← (hperm.map _).sum_eq, remainingValue, weigh_map, billingValues, List.map_map]
  -- which coupon goes with a charge, and so its place in the order, does not matter here
  have hvalues : ((chargesInOrder ids db.billingRecords).zipIdx.map Prod.fst).map
        (·.remainingUserValue now)
      = (chargesInOrder ids db.billingRecords).map (·.remainingUserValue now) := by
    rw [List.zipIdx_map_fst]
  rw [← hvalues, List.map_map]
  rfl

/-- A record that lasts from `start` on, not before now, is worth all of its amount;
one that started before is worth less. -/
theorem remainingUserValue_whole {record : BillingRecord} (hamount : 0 ≤ record.amount)
    (hstart : now ≤ record.periodStart) (hend : record.periodStart < record.periodEnd) :
    record.remainingUserValue now = record.amount := by
  have hratio : (record.toValue none).remainingRatio now = 1 := by
    have hlive : ¬(record.periodEnd - record.periodStart ≤ 0 ∨ record.periodEnd ≤ now) := by
      rw [not_or, not_le, not_le, sub_pos]
      exact ⟨hend, hstart.trans_lt hend⟩
    simp only [BillingValue.remainingRatio, BillingRecord.toValue, if_neg hlive]
    refine min_eq_right ?_
    have hpos : (0 : ℚ) < ((record.periodEnd - record.periodStart : ℤ) : ℚ) := by
      exact_mod_cast sub_pos.mpr hend
    rw [le_div_iff₀ hpos, one_mul]
    exact_mod_cast (sub_le_sub_left hstart _).trans (le_max_left _ _)
  rw [BillingRecord.remainingUserValue, hratio, one_mul]
  simp only [BillingRecord.toValue, max_eq_right hamount]

/-- A charge of nothing is left out of the value, and is worth nothing. -/
theorem sum_remainingUserValue_singleton {record : BillingRecord}
    (htype : record.type = .newPurchase ∨ record.type = .renew ∨ record.type = .upgrade)
    (hmem : record.instanceId ∈ ids) (hamount : 0 ≤ record.amount) :
    (([record].filter fun r => decide (r.instanceId ∈ ids) && r.isCharge).map
        (·.remainingUserValue now)).sum = record.remainingUserValue now := by
  have hcharge : record.isCharge = decide (0 < record.amount) := by
    rcases htype with h | h | h <;> simp [BillingRecord.isCharge, h]
  rcases hamount.eq_or_lt with hzero | hpos
  · have hworthless : record.remainingUserValue now = 0 := by
      simp [BillingRecord.remainingUserValue, BillingRecord.toValue, ← hzero]
    simp [hcharge, ← hzero, hworthless]
  · simp [hcharge, hpos, hmem]

end Value

/-! ## The record of a renewal -/

section Renewal

variable {db db' : Db} {e : Env} {userId instanceId months : ℕ} {inst : Instance} {d : Discounted}

/-- A renewal writes one record, and its history stays. -/
theorem performRenewal_record
    (h : performRenewal db e userId instanceId inst months d = .ok db') :
    1 ≤ months ∧ db'.history = db.history ∧
      ∃ record : BillingRecord, db'.billingRecords = db.billingRecords ++ [record] ∧
        record.type = .renew ∧ record.instanceId = instanceId ∧ record.amount = d.finalAmount ∧
        record.months = months ∧ record.periodStart = inst.expiresAt.getD e.now ∧
        record.periodEnd = addMonths (max (inst.expiresAt.getD e.now) e.now) months := by
  unfold performRenewal at h
  split at h
  · cases h
  split at h
  · cases h
  rename_i hmonths
  split at h
  · cases h
  split at h
  · cases h
  split at h
  · cases h
  split at h
  · cases h
  rename_i db₁ balanceLogId hcharge
  obtain rfl := Except.ok.inj h
  obtain ⟨⟨logs, hlogs⟩, -, -⟩ := chargeBalance_spec hcharge
  refine ⟨by omega, ?_, ?_⟩
  · rw [(processHostingIncome_spec _ _ _ _ _).1.history,
      (reserveOfficialCouponUsage_spec _ _ _ _ _ _).1.history]
    exact hlogs.posting.history
  · rw [(processHostingIncome_spec _ _ _ _ _).1.billingRecords,
      (reserveOfficialCouponUsage_spec _ _ _ _ _ _).1.billingRecords, List.append_nil,
      List.append_nil]
    have hrecords : db₁.billingRecords = db.billingRecords := by
      rw [hlogs.posting.billingRecords, List.append_nil]
    exact ⟨_, congrArg (· ++ [_]) hrecords, rfl, rfl, rfl, rfl, rfl, rfl⟩

end Renewal

/-- The instance 5 of the user 1, which costs ten a month and expires at `expiresAt`. -/
def renewalWorld (expiresAt : Time) : Db where
  users := fun id => if id ∈ [1, 2] then some { balance := 10000000000 } else none
  hosts := fun id => if id = 1 then some { userId := 2 } else none
  instances := fun id =>
    if id = 5 then
      some { userId := 1, hostId := 1, status := .stopped, packageId := some 1
             packagePlanId := some 1, billingPrice := some 1000, billingCycle := some 1
             expiresAt := some expiresAt }
    else none

/-- The renewal of the instance 5 for a month, at the end of a month. -/
def renewalOfMonth (expiresAt : Time) : Except String Db :=
  performRenewal (renewalWorld expiresAt) { now := freezeMs } 1 5
    { userId := 1, hostId := 1, status := .stopped, packageId := some 1
      packagePlanId := some 1, billingPrice := some 1000, billingCycle := some 1
      expiresAt := some expiresAt } 1 { originalAmount := 1000, finalAmount := 1000 }

end Incudal
