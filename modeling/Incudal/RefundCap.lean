/-
# `RefundCap` — over any sequence of charges and refunds

`BillingStep` collects the charges and the five refund paths, with the steps
between them that touch no money, and `Reach runBillingStep free` is any
sequence of them.  One inversion lemma (`booking_of_step`) says all that a step
can do to the ledgers; from it come two invariants:

* `LineageSound`: over the lineage of an instance, the refunds are at most the
  charges.  The rows before the last one of a lineage are those that a
  migration moved away (`Retired`), and no path refunds a retired row.
* `Books`: each refund in the balance log has exactly one refund record.

The settlement of a failed provision caps its refund by the charges of the
instance alone, so the invariant also keeps the rows before it balanced.
-/
import Incudal.Charges
import Incudal.Deletion
import Incudal.Lib.Machine

namespace Incudal

/-! ## The steps -/

/-- The operations that move money for instances, and what leads up to them. -/
inductive BillingStep
  | createInstance (e : Env) (instanceId : ℕ) (inst : Instance) (billingCycle : ℕ) (d : Discounted)
  | setStatus (instanceId : ℕ) (status : InstanceStatus)
  | claimFailed (instanceId : ℕ)
  | retryPurchase (e : Env) (instanceId purchaseMonths : ℕ) (d : Discounted)
  | renewal (e : Env) (instanceId months : ℕ) (d : Discounted)
  | planChange (e : Env) (instanceId : ℕ) (newPlan : PackagePlan)
  | adminRefund (e : Env) (instanceId : ℕ) (amount : ℚ)
  | claimCleanup (instanceId : ℕ) (reclaim : Bool)
  | failProvision (e : Env) (instanceId : ℕ)
  | claimDeletion (instanceId : ℕ) (mode : Option DeletionBillingMode) (feeWaiver : Bool)
  | storeValue (instanceId : ℕ) (refundableValue : Cents)
  | confirmDeleted (instanceId : ℕ)
  | userDestroy (e : Env) (requestUserId instanceId : ℕ) (refundableValue : ℚ) (feeWaiver : Bool)
  | privilegedDelete (e : Env) (instanceId : ℕ) (requestedRefundAmount : ℚ)

/-- One step; a transaction that throws is not a step.  What an operation reads
of the instance before its transaction it reads from the row. -/
def runBillingStep (db : Db) : BillingStep → Option Db
  | .createInstance e i inst billingCycle d => (createInstance db e i inst billingCycle d).toOption
  | .setStatus i status =>
      match db.instances i with
      | none => none
      | some inst =>
          if inst.status = .deleted ∨ status = .deleted then none
          else some (db.updateInstance i fun inst => { inst with status })
  | .claimFailed i => some (claimFailedInstance db i).1
  | .retryPurchase e i purchaseMonths d =>
      match db.instances i with
      | none => none
      | some inst =>
          -- only a creation that has been claimed again is charged
          if inst.status ≠ .creating then none
          else (retryPurchase db e i purchaseMonths d).toOption
  | .renewal e i months d =>
      match db.instances i with
      | none => none
      | some inst =>
          if d.originalAmount ≠ inst.renewalAmount months then none
          else (performRenewal db e inst.userId i inst months d).toOption
  | .planChange e i newPlan =>
      match db.instances i with
      | none => none
      | some inst => (performPlanChange db e inst.userId i inst newPlan).toOption
  | .adminRefund e i amount => (adminRefund db e i amount).toOption
  | .claimCleanup i reclaim => some (claimCreatingInstanceForCleanup db i reclaim).1
  | .failProvision e i => (failCreatingInstanceAndRefund db e i).toOption.map (·.1)
  | .claimDeletion i mode feeWaiver =>
      match db.instances i with
      | none => none
      | some inst =>
          if inst.status = .deleted then none
          else some (claimForDeletion db i inst.status mode feeWaiver).1
  | .storeValue i refundableValue => some (storeRefundableValue db i refundableValue)
  | .confirmDeleted i => some (confirmPendingDeleted db i)
  | .userDestroy e requestUserId i refundableValue feeWaiver =>
      match db.instances i with
      | none => none
      | some inst =>
          (settleUserDestroyBilling db e requestUserId ⟨i, inst.userId, inst.hostId⟩ refundableValue
            feeWaiver).toOption.map (·.1)
  | .privilegedDelete e i requestedRefundAmount =>
      match db.instances i with
      | none => none
      | some inst =>
          (settlePrivilegedDeletionBilling db e ⟨i, inst.userId, inst.hostId⟩
            requestedRefundAmount).toOption.map (·.1)

/-! ## Rows that a migration moved away -/

/-- What a migration leaves behind: deleted, with no deletion ever claimed on it. -/
def Instance.isRetired (inst : Instance) : Bool :=
  inst.status == .deleted && !inst.deletionBillingPending && !inst.deletionRemoteDeleted

def Db.Retired (db : Db) (instanceId : ℕ) : Prop :=
  ∃ inst, db.instances instanceId = some inst ∧ inst.isRetired = true

/-- The instance has a row, on this host. -/
def Db.OnHost (db : Db) (instanceId hostId : ℕ) : Prop :=
  ∃ inst, db.instances instanceId = some inst ∧ inst.hostId = hostId

/-- Retired rows stay retired, and every row stays on its host. -/
structure KeepsRows (db db' : Db) : Prop where
  retired : ∀ j, db.Retired j → db'.Retired j
  onHost : ∀ j hostId, db.OnHost j hostId → db'.OnHost j hostId

section Retired

variable {db db' db'' : Db} {i : ℕ} {f : Instance → Instance} {inst : Instance}

theorem KeepsRows.of_eq (h : db'.instances = db.instances) : KeepsRows db db' where
  retired j hj := by rwa [Db.Retired, h]
  onHost j hostId hj := by rwa [Db.OnHost, h]

theorem KeepsRows.of_updateInstance
    (hf : ∀ inst, db.instances i = some inst → inst.isRetired = true → (f inst).isRetired = true)
    (h : db'.instances = (db.updateInstance i f).instances)
    (hhost : ∀ inst, (f inst).hostId = inst.hostId) : KeepsRows db db' where
  retired := by
    rintro j ⟨inst, hinst, hretired⟩
    rw [Db.Retired, h]
    by_cases hj : j = i
    · subst hj
      exact ⟨f inst, by simp [Db.updateInstance, hinst], hf inst hinst hretired⟩
    · exact ⟨inst, by simp [Db.updateInstance, hj, hinst], hretired⟩
  onHost := by
    rintro j hostId ⟨inst, hinst, rfl⟩
    rw [Db.OnHost, h]
    by_cases hj : j = i
    · subst hj
      exact ⟨f inst, by simp [Db.updateInstance, hinst], hhost inst⟩
    · exact ⟨inst, by simp [Db.updateInstance, hj, hinst], rfl⟩

/-- A row whose status is not `deleted` is not retired. -/
theorem not_retired_of_status (hinst : db.instances i = some inst) (h : inst.status ≠ .deleted) :
    ¬db.Retired i := by
  rintro ⟨inst', hinst', hretired⟩
  obtain rfl : inst = inst' := Option.some.inj (hinst.symm.trans hinst')
  simp [Instance.isRetired, h] at hretired

/-- A retired row has no confirmed deletion. -/
theorem not_retired_of_confirmed (h : deletionConfirmed db i = true) : ¬db.Retired i := by
  rintro ⟨inst, hinst, hretired⟩
  simp only [deletionConfirmed, hinst] at h
  simp [Instance.isRetired, h] at hretired

theorem not_retired_of_none (h : db.instances i = none) : ¬db.Retired i := by
  rintro ⟨inst, hinst, -⟩
  rw [h] at hinst
  cases hinst

theorem KeepsRows.of_not_retired (hi : ¬db.Retired i)
    (h : db'.instances = (db.updateInstance i f).instances)
    (hhost : ∀ inst, (f inst).hostId = inst.hostId) : KeepsRows db db' :=
  .of_updateInstance (fun inst hinst hretired => absurd ⟨inst, hinst, hretired⟩ hi) h hhost

end Retired

/-! ## What a step does -/

/-- The caps under which the paths refund. -/
def WithinCap (db : Db) (instanceId : ℕ) (r : Cents) : Prop :=
  r ≤ getMaxRefundable db instanceId ∨ r ≤ failedProvisionRefund db instanceId

/-- Of the two ledgers: a step refunds nothing, or it refunds once, as much as
is allowed, for a row that is not retired. -/
inductive Outcome (allowed : ℕ → Cents → Prop) (db db' : Db) : Prop
  | plain {logs : List BalanceLog} {records : List BillingRecord}
      (posted : PlainPosted db db' logs records)
  | refund {userId instanceId : ℕ} {r : Cents} {log : BalanceLog} {record : BillingRecord}
      {logs : List BalanceLog} {records : List BillingRecord}
      (posted : RefundPosted db db' userId instanceId r log record logs records)
      (nonneg : 0 ≤ r) (cap : allowed instanceId r) (live : ¬db.Retired instanceId)

/-- With hosting income and coupons as well: a step moves no money, charges for
one instance or refunds for one.  What an owner earns by a charge is what the
user pays and the coupon takes off; what is taken back is the hosted part of
the refund, or where a creation has failed all that it has brought in. -/
inductive Booking (allowed : ℕ → Cents → Prop) (failing : Prop) (db db' : Db) : Prop
  | quiet (posted : QuietPosted db db')
  | charge {hostId k : ℕ} {charged income discount : Cents}
      (posted : ChargePosted db db' hostId k charged income discount)
      (nonneg : 0 ≤ charged ∧ 0 ≤ discount) (covered : charged + discount ≤ income)
      (live : ¬db.Retired k) (host : db'.OnHost k hostId)
  | refund {hostId userId k : ℕ} {r hosted : Cents}
      (posted : RefundPaid db db' hostId userId k r hosted) (nonneg : 0 ≤ r) (cap : allowed k r)
      (share : (¬failing ∧ ∃ now allowHistorical,
          hosted = calculateHostedRefundAmount db now k r allowHistorical)
        ∨ failing ∧ r ≤ failedProvisionRefund db k ∧ hosted = r + couponDiscounts [k] db.couponUsages)
      (live : ¬db.Retired k) (host : db.OnHost k hostId)

section Bookings

variable {allowed allowed' : ℕ → Cents → Prop} {failing : Prop} {db db' : Db}

theorem Booking.outcome (h : Booking allowed failing db db') : Outcome allowed db db' := by
  cases h with
  | quiet posted =>
      obtain ⟨logs, records, hposted, -⟩ := posted.posted
      exact .plain hposted
  | charge posted =>
      obtain ⟨logs, records, hposted, -⟩ := posted.posted
      exact .plain hposted
  | refund posted nonneg cap share live =>
      obtain ⟨log, record, logs, records, hposted, -⟩ := posted.posted
      exact .refund hposted nonneg cap live

theorem Booking.mono (h : Booking allowed failing db db')
    (himp : ∀ k r, allowed k r → allowed' k r) : Booking allowed' failing db db' := by
  cases h with
  | quiet posted => exact .quiet posted
  | charge posted nonneg covered live host => exact .charge posted nonneg covered live host
  | refund posted nonneg cap share live host =>
      exact .refund posted nonneg (himp _ _ cap) share live host

theorem Untouched.booking (h : Untouched db db') : Booking allowed failing db db' := .quiet h.quiet

end Bookings

/-- The instance that a step refunds, if it refunds one. -/
def BillingStep.refunds (db : Db) : BillingStep → Option ℕ
  | .planChange e i newPlan =>
      match db.instances i with
      | none => none
      | some inst =>
          match calculatePlanChange db e.now i inst newPlan with
          | none => none
          | some changeResult => if changeResult.priceDiff < 0 then some i else none
  | .adminRefund _ i _ | .failProvision _ i | .userDestroy _ _ i _ _ | .privilegedDelete _ i _ =>
      some i
  | _ => none

def BillingStep.isFailProvision : BillingStep → Bool
  | .failProvision _ _ => true
  | _ => false

/-- What a step may refund: its own instance, within a cap. -/
def BillingStep.Allows (db : Db) (s : BillingStep) (instanceId : ℕ) (r : Cents) : Prop :=
  s.refunds db = some instanceId ∧ WithinCap db instanceId r

theorem Discounted.couponDiscount_nonneg (d : Discounted) : 0 ≤ d.couponDiscount := by
  unfold Discounted.couponDiscount
  split
  · exact sub_nonneg.mpr d.le
  · exact le_rfl

/-- The owner earns what the user pays and what the coupon takes off. -/
theorem Discounted.finalAmount_add_couponDiscount (d : Discounted) :
    d.finalAmount + d.couponDiscount = d.hostingIncome := by
  unfold Discounted.couponDiscount Discounted.hostingIncome
  cases d.officialCoupon with
  | none => exact add_zero _
  | some couponId => exact add_sub_cancel _ _

section Steps

variable {allowed : ℕ → Cents → Prop} {failing : Prop} {db db' : Db} {s : BillingStep}

theorem ChargePosted.booking {hostId k : ℕ} {d : Discounted}
    (h : ChargePosted db db' hostId k d.finalAmount d.hostingIncome d.couponDiscount)
    (hlive : ¬db.Retired k) (hhost : db'.OnHost k hostId) : Booking allowed failing db db' :=
  .charge h ⟨d.nonneg, d.couponDiscount_nonneg⟩ d.finalAmount_add_couponDiscount.le hlive hhost

theorem settlePrivileged_booking {e : Env} {inst : BillingInstance} {requested : ℚ} {r : Cents}
    (hfailing : ¬failing) (hhost : db.OnHost inst.id inst.hostId) (hallowed : ∀ r, WithinCap db inst.id r → allowed inst.id r)
    (h : settlePrivilegedDeletionBilling db e inst requested = .ok (db', r)) :
    Booking allowed failing db db' ∧ KeepsRows db db' := by
  obtain ⟨hconfirmed, hr, db₁, rfl, hframe, hposted⟩ := settlePrivilegedDeletionBilling_spec h
  have hlive := not_retired_of_confirmed hconfirmed
  have hclear : Untouched db₁ (db₁.updateInstance inst.id clearDeletionBillingState) :=
    .updateInstance db₁ inst.id _
  refine ⟨?_, .of_not_retired (f := clearDeletionBillingState) hlive ?_ (fun _ => rfl)⟩
  · rcases hposted with ⟨-, rfl⟩ | ⟨hpos, hposted, htaken⟩
    · exact hclear.booking
    · refine .refund (.of_posted hposted htaken (hframe.couponUsages ▸ List.Sublist.refl _) hclear)
        hpos.le (hallowed _ (.inl ?_)) (.inl ⟨hfailing, _, _, rfl⟩) hlive hhost
      rw [hr]
      exact min_le_right _ _
  · simp only [Db.updateInstance, hframe.instances]

theorem settleUserDestroy_booking {e : Env} {requestUserId : ℕ} {inst : BillingInstance}
    {value : ℚ} {feeWaiver : Bool} {settled : DestroySettlement} (hfailing : ¬failing)
    (hhost : db.OnHost inst.id inst.hostId) (hallowed : ∀ r, WithinCap db inst.id r → allowed inst.id r)
    (h : settleUserDestroyBilling db e requestUserId inst value feeWaiver = .ok (db', settled)) :
    Booking allowed failing db db' ∧ KeepsRows db db' := by
  obtain ⟨hconfirmed, db₁, hframe, hcases⟩ := settleUserDestroyBilling_spec h
  have hlive := not_retired_of_confirmed hconfirmed
  rcases hcases with ⟨-, rfl, -⟩ | ⟨-, hcap, rfl, hposted⟩
  · exact ⟨(Untouched.updateInstance db inst.id _).booking,
      .of_not_retired hlive rfl (fun _ => rfl)⟩
  · have hclear : Untouched db₁ ((db₁.createDestroyRecord
        ⟨requestUserId, inst.hostId, inst.id, settled.refundAmount, settled.feeAmount,
          settled.isFirstTime⟩).updateInstance inst.id clearDeletionBillingState) :=
      .of_eq rfl rfl rfl le_rfl rfl rfl rfl rfl
    refine ⟨?_, .of_not_retired (f := clearDeletionBillingState) hlive ?_ (fun _ => rfl)⟩
    · rcases hposted with ⟨-, rfl⟩ | ⟨hpos, hposted, htaken⟩
      · exact hclear.booking
      · exact .refund (.of_posted hposted htaken (hframe.couponUsages ▸ List.Sublist.refl _) hclear)
          hpos.le (hallowed _ (.inl hcap)) (.inl ⟨hfailing, _, _, rfl⟩) hlive hhost
    · simp only [Db.updateInstance, Db.createDestroyRecord, hframe.instances]

theorem failCreating_booking {e : Env} {i : ℕ} {result : Option Units} (hfailing : failing)
    (hallowed : ∀ r, WithinCap db i r → allowed i r)
    (h : failCreatingInstanceAndRefund db e i = .ok (db', result)) :
    Booking allowed failing db db' ∧ KeepsRows db db' := by
  rcases failCreatingInstanceAndRefund_spec h with
    ⟨-, rfl⟩ | ⟨row, hrow, hstatus, hinst, husages, hposted⟩
  · exact ⟨(Untouched.refl _).booking, .of_eq rfl⟩
  · have hlive : ¬db.Retired i := not_retired_of_status hrow (by simp [hstatus])
    refine ⟨?_, .of_not_retired hlive hinst (fun _ => rfl)⟩
    rcases hposted with ⟨⟨logs, hlogs⟩, hhosting⟩ | ⟨hpos, hlogs, htaken⟩
    · exact .quiet ⟨⟨logs, [], hlogs, by simp⟩, hhosting, husages⟩
    · exact .refund (.of_posted hlogs htaken husages (.refl _)) hpos.le (hallowed _ (.inr le_rfl))
        (.inr ⟨hfailing, le_rfl, rfl⟩) hlive ⟨row, hrow, rfl⟩

/-- All that a step can do. -/
theorem booking_of_step (h : runBillingStep db s = some db') :
    Booking (s.Allows db) (s.isFailProvision = true) db db' ∧ KeepsRows db db' := by
  cases s with
  | createInstance e i inst billingCycle d =>
      obtain ⟨hnone, hposted, row, hhost, hrow⟩ := createInstance_spec (toOption_eq_some h)
      have hne {j : ℕ} {inst' : Instance} (hinst' : db.instances j = some inst') : j ≠ i := by
        rintro rfl
        simp [hnone] at hinst'
      refine ⟨hposted.booking (not_retired_of_none hnone) ⟨row, by simp [hrow], hhost⟩, ?_, ?_⟩
      · rintro j ⟨inst', hinst', hretired⟩
        exact ⟨inst', by simp [hrow, hne hinst', hinst'], hretired⟩
      · rintro j hostId ⟨inst', hinst', rfl⟩
        exact ⟨inst', by simp [hrow, hne hinst', hinst'], rfl⟩
  | setStatus i status =>
      simp only [runBillingStep] at h
      split at h
      · cases h
      rename_i inst hinst
      split at h
      · cases h
      rename_i hstatus
      rw [not_or] at hstatus
      cases h
      exact ⟨(Untouched.updateInstance db i _).booking,
        .of_not_retired (not_retired_of_status hinst hstatus.1) rfl (fun _ => rfl)⟩
  | claimFailed i =>
      simp only [runBillingStep, Option.some.injEq, claimFailedInstance] at h
      split at h
      · cases h
        exact ⟨(Untouched.refl _).booking, .of_eq rfl⟩
      rename_i inst hinst
      split at h
      · rename_i hstatus
        cases h
        exact ⟨(Untouched.updateInstance db i _).booking,
          .of_not_retired (not_retired_of_status hinst (by simp [hstatus.1])) rfl (fun _ => rfl)⟩
      · cases h
        exact ⟨(Untouched.refl _).booking, .of_eq rfl⟩
  | retryPurchase e i purchaseMonths d =>
      simp only [runBillingStep] at h
      split at h
      · cases h
      rename_i inst hinst
      split at h
      · cases h
      rename_i hstatus
      rw [not_not] at hstatus
      obtain ⟨row, hrow, hposted, expiresAt, hinstances⟩ := retryPurchase_spec (toOption_eq_some h)
      obtain rfl : inst = row := Option.some.inj (hinst.symm.trans hrow)
      have hlive : ¬db.Retired i := not_retired_of_status hinst (by simp [hstatus])
      have hrows : KeepsRows db db' :=
        .of_not_retired (f := (·.extended expiresAt)) hlive hinstances (fun _ => rfl)
      exact ⟨hposted.booking hlive (hrows.onHost i inst.hostId ⟨inst, hinst, rfl⟩), hrows⟩
  | renewal e i months d =>
      simp only [runBillingStep] at h
      split at h
      · cases h
      rename_i inst hinst
      split at h
      · cases h
      obtain ⟨⟨row, hrow, hrenewable⟩, hposted, newExpiresAt, hinstances⟩ :=
        performRenewal_spec (toOption_eq_some h)
      have hlive : ¬db.Retired i := by
        refine not_retired_of_status hrow ?_
        intro hdeleted
        simp [Instance.isRenewable, Instance.isExpiredSuspension, hdeleted] at hrenewable
      have hrows : KeepsRows db db' :=
        .of_not_retired (f := (·.renewed newExpiresAt)) hlive hinstances (fun _ => rfl)
      exact ⟨hposted.booking hlive (hrows.onHost i inst.hostId ⟨inst, hinst, rfl⟩), hrows⟩
  | planChange e i newPlan =>
      simp only [runBillingStep] at h
      split at h
      · cases h
      rename_i inst hinst
      obtain ⟨hstatus, hinstances, hposted⟩ := performPlanChange_spec (toOption_eq_some h)
      have hlive : ¬db.Retired i :=
        not_retired_of_status hinst (by rcases hstatus with hs | hs <;> simp [hs])
      have hrows : KeepsRows db db' :=
        .of_not_retired (f := (·.changedTo newPlan)) hlive hinstances (fun _ => rfl)
      refine ⟨?_, hrows⟩
      rcases hposted with hquiet | ⟨charged, income, hpos, hle, hposted⟩ | 
        ⟨changeResult, r, hresult, hdiff, hpos, -, hcap, hposted⟩
      · exact .quiet hquiet
      · exact .charge hposted ⟨hpos, le_rfl⟩ (by simpa using hle) hlive
          (hrows.onHost i inst.hostId ⟨inst, hinst, rfl⟩)
      · exact .refund hposted hpos.le ⟨by simp [BillingStep.refunds, hinst, hresult, hdiff], .inl hcap⟩
          (.inl ⟨Bool.false_ne_true, _, _, rfl⟩) hlive ⟨inst, hinst, rfl⟩
  | adminRefund e i amount =>
      obtain ⟨row, hrow, hstatus, hpos, hcap, hframe, hposted, htaken⟩ :=
        adminRefund_spec (toOption_eq_some h)
      exact ⟨.refund (.of_posted hposted htaken (hframe.couponUsages ▸ List.Sublist.refl _) (.refl _))
        hpos ⟨rfl, .inl hcap⟩ (.inl ⟨Bool.false_ne_true, _, _, rfl⟩)
        (not_retired_of_status hrow hstatus) ⟨row, hrow, rfl⟩,
        .of_eq hframe.instances⟩
  | claimCleanup i reclaim =>
      simp only [runBillingStep, Option.some.injEq, claimCreatingInstanceForCleanup] at h
      split at h
      · cases h
        exact ⟨(Untouched.refl _).booking, .of_eq rfl⟩
      rename_i inst hinst
      split at h
      · rename_i hstatus
        cases h
        exact ⟨(Untouched.updateInstance db i _).booking,
          .of_not_retired (not_retired_of_status hinst (by simp [hstatus.1])) rfl (fun _ => rfl)⟩
      · cases h
        exact ⟨(Untouched.refl _).booking, .of_eq rfl⟩
  | failProvision e i =>
      obtain ⟨⟨db₁, result⟩, hrun, rfl⟩ := Option.map_eq_some_iff.mp h
      exact failCreating_booking rfl (fun r hcap => ⟨rfl, hcap⟩) (toOption_eq_some hrun)
  | claimDeletion i mode feeWaiver =>
      simp only [runBillingStep] at h
      split at h
      · cases h
      rename_i inst hinst
      split at h
      · cases h
      rename_i hstatus
      cases h
      have hlive := not_retired_of_status hinst hstatus
      simp only [claimForDeletion, hinst, ne_eq, not_true_eq_false, if_false]
      exact ⟨(Untouched.updateInstance db i _).booking, .of_not_retired hlive rfl (fun _ => rfl)⟩
  | storeValue i refundableValue =>
      cases h
      exact ⟨(Untouched.updateInstance db i _).booking,
        .of_updateInstance (f := fun i => { i with deletionRefundableValue := some refundableValue })
          (fun inst _ hretired => hretired) rfl (fun _ => rfl)⟩
  | confirmDeleted i =>
      cases h
      refine ⟨(Untouched.updateInstance db i _).booking,
        .of_updateInstance (f := fun i =>
          if i.isPendingDeletion then { i with deletionRemoteDeleted := true } else i) ?_ rfl ?_⟩
      · intro inst _ hretired
        have hpending : inst.isPendingDeletion = false := by
          simp only [Instance.isRetired, Bool.and_eq_true, Bool.not_eq_true'] at hretired
          simp [Instance.isPendingDeletion, hretired.1.2]
        simpa [hpending] using hretired
      · intro inst
        split <;> rfl
  | userDestroy e requestUserId i refundableValue feeWaiver =>
      simp only [runBillingStep] at h
      split at h
      · cases h
      rename_i inst hinst
      obtain ⟨⟨db₁, settled⟩, hrun, rfl⟩ := Option.map_eq_some_iff.mp h
      exact settleUserDestroy_booking Bool.false_ne_true ⟨inst, hinst, rfl⟩ (fun r hcap => ⟨rfl, hcap⟩)
        (toOption_eq_some hrun)
  | privilegedDelete e i requestedRefundAmount =>
      simp only [runBillingStep] at h
      split at h
      · cases h
      rename_i inst hinst
      obtain ⟨⟨db₁, r⟩, hrun, rfl⟩ := Option.map_eq_some_iff.mp h
      exact settlePrivileged_booking Bool.false_ne_true ⟨inst, hinst, rfl⟩ (fun r hcap => ⟨rfl, hcap⟩)
        (toOption_eq_some hrun)

end Steps

/-! ## Refunds within charges -/

section Cap

variable {db db' : Db} {ids : List ℕ} {i : ℕ}

/-- The lineage without its last row. -/
def Db.ancestors (db : Db) (instanceId : ℕ) : List ℕ :=
  (db.lineage instanceId).filter (· ≠ instanceId)

/-- The refunds of a lineage are within its charges, those of the rows before
the last within the charges of these, and these rows are retired. -/
structure LineageSound (db : Db) (instanceId : ℕ) : Prop where
  retired : ∀ j ∈ db.ancestors instanceId, db.Retired j
  ancestors : refundedAmount (db.ancestors instanceId) db.billingRecords
    ≤ consumedAmount (db.ancestors instanceId) db.billingRecords
  bounded : refundedAmount (db.lineage instanceId) db.billingRecords
    ≤ consumedAmount (db.lineage instanceId) db.billingRecords

/-- The amounts of a lineage split into those of its last row and the others. -/
theorem total_lineage_split (g : BillingRecord → Cents) (p : BillingRecord → Bool)
    (records : List BillingRecord) (hi : i ∈ ids) :
    Keyed.total g (records.filter fun r => decide (r.instanceId ∈ ids) && p r)
      = Keyed.total g (records.filter fun r => decide (r.instanceId ∈ ids.filter (· ≠ i)) && p r)
        + Keyed.total g (records.filter fun r => r.instanceId == i && p r) := by
  induction records with
  | nil => simp
  | cons record records ih =>
      by_cases hrecord : record.instanceId = i
      · cases hp : p record
        · simpa [hp] using ih
        · simp only [List.filter_cons, hrecord, hi, hp, decide_true, Bool.and_self, if_true,
            Keyed.total_cons, ih, List.mem_filter, ne_eq, not_true_eq_false, decide_false,
            Bool.false_eq_true, and_false, Bool.false_and, if_false, beq_self_eq_true]
          ring
      · cases hp : p record <;> by_cases hmem : record.instanceId ∈ ids
        all_goals simp [hrecord, hmem, hp, ih]
        ring

theorem ancestors_eq (h : db'.history = db.history) (i : ℕ) : db'.ancestors i = db.ancestors i := by
  simp only [Db.ancestors, lineage_eq h]

/-- The purchases of one instance are among its charges. -/
theorem purchases_le_consumed (i : ℕ) (records : List BillingRecord) :
    Keyed.total (fun r : BillingRecord => max 0 r.amount)
        ((records.filter fun r => r.instanceId == i).filter fun r => r.type == .newPurchase)
      ≤ Keyed.total BillingRecord.amount
        (records.filter fun r => r.instanceId == i && r.isCharge) := by
  induction records with
  | nil => simp
  | cons record records ih =>
      by_cases hrecord : record.instanceId = i
      · rcases le_or_gt record.amount 0 with hamount | hamount
        · -- not a charge, and nothing as a purchase
          have hcharge : record.isCharge = false := by
            simp [BillingRecord.isCharge, not_lt.mpr hamount]
          by_cases htype : record.type = .newPurchase <;>
            simpa [hrecord, hcharge, htype, max_eq_left hamount] using ih
        · by_cases htype : record.type = .newPurchase
          · have hcharge : record.isCharge = true := by
              simp [BillingRecord.isCharge, htype, hamount]
            simpa [hrecord, hcharge, htype, max_eq_right hamount.le] using ih
          · cases hcharge : record.isCharge
            · simpa [hrecord, hcharge, htype] using ih
            · have hle := ih.trans (le_add_of_nonneg_left hamount.le)
              simpa [hrecord, hcharge, htype] using hle
      · simpa [hrecord] using ih

/-- A refund within either cap keeps the lineage within its charges. -/
theorem LineageSound.refund_le (h : LineageSound db i) {r : Cents} (hcap : WithinCap db i r) :
    refundedAmount (db.lineage i) db.billingRecords + r
      ≤ consumedAmount (db.lineage i) db.billingRecords := by
  have hself : i ∈ db.lineage i := self_mem_lineage db.history i
  have hbounded := h.bounded
  rcases hcap with hcap | hcap
  · rw [getMaxRefundable, max_eq_right (sub_nonneg.mpr hbounded)] at hcap
    linarith
  · -- what the instance itself is charged bounds the refund, the ancestors are balanced
    have hancestors := h.ancestors
    have hconsumed := total_lineage_split BillingRecord.amount BillingRecord.isCharge
      db.billingRecords hself
    have hrefunded := total_lineage_split (fun r => |r.amount|) (fun r => r.type == .refund)
      db.billingRecords hself
    have hpurchases := purchases_le_consumed i db.billingRecords
    simp only [failedProvisionRefund, List.filter_filter, Bool.and_comm (_ == _) (_ == i),
      le_max_iff] at hcap hpurchases
    rcases hcap with hcap | hcap
    · linarith
    · calc refundedAmount (db.lineage i) db.billingRecords + r
          = refundedAmount (db.ancestors i) db.billingRecords
              + Keyed.total (fun r => |r.amount|)
                (db.billingRecords.filter fun r => r.instanceId == i && r.type == .refund) + r :=
            congrArg (· + r) hrefunded
        _ ≤ consumedAmount (db.ancestors i) db.billingRecords
              + Keyed.total BillingRecord.amount
                (db.billingRecords.filter fun r => r.instanceId == i && r.isCharge) := by
            rw [add_assoc]
            exact add_le_add hancestors (le_sub_iff_add_le'.mp (hcap.trans (sub_le_sub_right hpurchases _)))
        _ = consumedAmount (db.lineage i) db.billingRecords := hconsumed.symm

/-- A step keeps the lineage within its charges. -/
theorem LineageSound.step (h : LineageSound db i)
    (hstep : Outcome (fun k r => k = i → WithinCap db k r) db db')
    (hrows : KeepsRows db db') : LineageSound db' i := by
  cases hstep with
  | plain posted =>
      rename_i logs records
      have hlineage := lineage_eq posted.posting.history i
      have hancestors := ancestors_eq posted.posting.history i
      have hposted (ids : List ℕ) (hids : refundedAmount ids db.billingRecords
          ≤ consumedAmount ids db.billingRecords) :
          refundedAmount ids db'.billingRecords ≤ consumedAmount ids db'.billingRecords := by
        rw [posted.posting.billingRecords, refundedAmount_append, consumedAmount_append,
          refundedAmount_of_plain ids posted.records]
        linarith [consumedAmount_nonneg ids records]
      exact
        { retired := fun j hj => hrows.retired j (h.retired j (hancestors ▸ hj))
          ancestors := hancestors ▸ hposted _ h.ancestors
          bounded := hlineage ▸ hposted _ h.bounded }
  | refund posted nonneg cap live =>
      rename_i userId k r log record logs records
      have hlineage := lineage_eq posted.posting.history i
      have hancestors := ancestors_eq posted.posting.history i
      have hrefunded (ids : List ℕ) : refundedAmount ids db'.billingRecords
          = refundedAmount ids db.billingRecords + if k ∈ ids then r else 0 := by
        rw [posted.posting.billingRecords, refundedAmount_append, refundedAmount_cons_refund nonneg
          posted.recordType posted.recordAmount posted.records, posted.recordInstance]
      have hconsumed (ids : List ℕ) : consumedAmount ids db.billingRecords
          ≤ consumedAmount ids db'.billingRecords := by
        rw [posted.posting.billingRecords, consumedAmount_append]
        linarith [consumedAmount_nonneg ids (record :: records)]
      -- a retired row is not refunded, so of the lineage it is the last row or none
      have hnot : k ∉ db.ancestors i := fun hk => live (h.retired k hk)
      refine
        { retired := fun j hj => hrows.retired j (h.retired j (hancestors ▸ hj))
          ancestors := ?_
          bounded := ?_ }
      · rw [hancestors, hrefunded, if_neg hnot, add_zero]
        exact h.ancestors.trans (hconsumed _)
      · rw [hlineage, hrefunded]
        refine le_trans ?_ (hconsumed _)
        by_cases hk : k ∈ db.lineage i
        · obtain rfl : k = i := by
            by_contra hne
            exact hnot (List.mem_filter.mpr ⟨hk, by simpa using hne⟩)
          rw [if_pos hk]
          exact h.refund_le (cap rfl)
        · rw [if_neg hk, add_zero]
          exact h.bounded

end Cap

/-! ## One refund record for each refund -/

section Books

variable {db db' : Db} {i : ℕ}

/-- A refund record that names a balance log. -/
def BillingRecord.refunds (log : BalanceLog) (record : BillingRecord) : Bool :=
  record.type == .refund && record.balanceLogId == some log.id

/-- Each refund in the balance log is the amount of exactly one refund record;
the first two fields keep the ids apart. -/
structure Books (db : Db) : Prop where
  logIds : ∀ log ∈ db.balanceLogs, log.id < db.nextId
  logRefs : ∀ record ∈ db.billingRecords, record.type = .refund →
    ∀ id, record.balanceLogId = some id → id < db.nextId
  matched : ∀ log ∈ db.balanceLogs, log.type = .refund →
    ∃ record, db.billingRecords.filter (·.refunds log) = [record] ∧
      log.amount = toUnits (-record.amount)

theorem filter_refunds_of_plain {records : List BillingRecord} (log : BalanceLog)
    (h : ∀ b ∈ records, b.type ≠ .refund) : records.filter (·.refunds log) = [] := by
  refine List.filter_eq_nil_iff.mpr fun b hb => ?_
  simp [BillingRecord.refunds, h b hb]

theorem Books.step {allowed : ℕ → Cents → Prop} (h : Books db) (hstep : Outcome allowed db db') : Books db' := by
  cases hstep with
  | plain posted =>
      rename_i logs records
      refine
        { logIds := fun log hlog => ?_
          logRefs := fun b hb htype id hid => ?_
          matched := fun log hlog htype => ?_ }
      · rw [posted.posting.balanceLogs] at hlog
        rcases List.mem_append.mp hlog with hlog | hlog
        · exact (h.logIds log hlog).trans_le posted.posting.nextId
        · exact (posted.posting.logIds.range _ (List.mem_map_of_mem hlog)).2
      · rw [posted.posting.billingRecords] at hb
        rcases List.mem_append.mp hb with hb | hb
        · exact (h.logRefs b hb htype id hid).trans_le posted.posting.nextId
        · exact absurd htype (posted.records b hb)
      · rw [posted.posting.balanceLogs] at hlog
        rcases List.mem_append.mp hlog with hlog | hlog
        · obtain ⟨record, hrecord, hamount⟩ := h.matched log hlog htype
          refine ⟨record, ?_, hamount⟩
          rw [posted.posting.billingRecords, List.filter_append, hrecord,
            filter_refunds_of_plain log posted.records, List.append_nil]
        · exact absurd htype (posted.logs log hlog)
  | refund posted nonneg cap live =>
      rename_i userId k r log₀ record₀ logs records
      have hnew := posted.posting.logIds.range log₀.id (by simp)
      refine
        { logIds := fun log hlog => ?_
          logRefs := fun b hb htype id hid => ?_
          matched := fun log hlog htype => ?_ }
      · rw [posted.posting.balanceLogs] at hlog
        rcases List.mem_append.mp hlog with hlog | hlog
        · exact (h.logIds log hlog).trans_le posted.posting.nextId
        · exact (posted.posting.logIds.range _ (List.mem_map_of_mem hlog)).2
      · rw [posted.posting.billingRecords] at hb
        rcases List.mem_append.mp hb with hb | hb
        · exact (h.logRefs b hb htype id hid).trans_le posted.posting.nextId
        rcases List.mem_cons.mp hb with rfl | hb
        · rw [posted.recordLog, Option.some.injEq] at hid
          exact hid ▸ hnew.2
        · exact absurd htype (posted.records b hb)
      · rw [posted.posting.balanceLogs] at hlog
        rw [posted.posting.billingRecords, List.filter_append, List.filter_cons,
          filter_refunds_of_plain log posted.records]
        rcases List.mem_append.mp hlog with hlog | hlog
        · -- an old log: the new record names a newer one
          have hne : record₀.refunds log = false := by
            have := h.logIds log hlog
            simp only [BillingRecord.refunds, posted.recordLog, Bool.and_eq_false_iff,
              beq_eq_false_iff_ne, ne_eq, Option.some.injEq]
            exact .inr (by omega)
          obtain ⟨record, hrecord, hamount⟩ := h.matched log hlog htype
          exact ⟨record, by simp [hne, hrecord], hamount⟩
        rcases List.mem_cons.mp hlog with rfl | hlog
        · -- the new log: no old record names it
          have hold : db.billingRecords.filter (·.refunds log) = [] := by
            refine List.filter_eq_nil_iff.mpr fun b hb hrefunds => ?_
            simp only [BillingRecord.refunds, Bool.and_eq_true, beq_iff_eq] at hrefunds
            have := h.logRefs b hb hrefunds.1 log.id hrefunds.2
            omega
          have hself : record₀.refunds log = true := by
            simp [BillingRecord.refunds, posted.recordType, posted.recordLog]
          exact ⟨record₀, by simp [hold, hself], by
            rw [posted.logAmount, posted.recordAmount, neg_neg]⟩
        · exact absurd htype (posted.logs log hlog)

/-- A step changes a balance by what it logs. -/
theorem balance_of_step {allowed : ℕ → Cents → Prop} (hstep : Outcome allowed db db') (u : ℕ) :
    db'.balanceOf u - logSum u db'.balanceLogs = db.balanceOf u - logSum u db.balanceLogs := by
  have hposted {logs : List BalanceLog} {records : List BillingRecord}
      (h : Posting db db' logs records) :
      db'.balanceOf u - logSum u db'.balanceLogs = db.balanceOf u - logSum u db.balanceLogs := by
    rw [h.balance, h.balanceLogs, logSum_append]
    ring
  cases hstep with
  | plain posted => exact hposted posted.posting
  | refund posted nonneg cap live => exact hposted posted.posting

end Books

/-! ## Runs -/

section Runs

variable {db db' : Db} {i : ℕ}

/-- User 1 has 100 yuan and a row 5 that was migrated to host 10 as row 6. -/
def migratedDb : Db where
  users
    | 1 => some { balance := 10000000000 }
    | 2 => some {}
    | _ => none
  hosts
    | 10 => some { userId := 2 }
    | _ => none
  instances
    | 5 => some { userId := 1, hostId := 9, status := .deleted }
    | _ => none
  history :=
    { seeds :=
        [{ id := 5, userId := 1, hostId := 9, name := "web", expiresAt := none, updatedAt := 0
           status := .deleted, hasBillingRecords := true },
         { id := 6, userId := 1, hostId := 10, name := "web", expiresAt := none, updatedAt := 0
           status := .running, hasBillingRecords := false }]
      messages :=
        [{ userId := 1, createdAt := 0, instanceId := some 6, oldHostId := some 9
           newHostId := some 10, instanceName := none }] }
  nextId := 100

/-- Bought for 50 yuan, refunded 20 by an administrator, deleted with a refund
of all that is left. -/
def migratedRun : List BillingStep :=
  [.createInstance { now := 0 } 6 { userId := 1, hostId := 10, status := .creating } 1
    { originalAmount := 5000, finalAmount := 5000 },
   .setStatus 6 .running, .adminRefund { now := 1 } 6 2000,
   .claimDeletion 6 (some .privilegedDelete) false, .confirmDeleted 6,
   .privilegedDelete { now := 2 } 6 9000]

theorem migratedDb_sound : LineageSound migratedDb 6 where
  retired := by
    have h : migratedDb.ancestors 6 = [5] := by decide
    rw [h]
    rintro j hj
    obtain rfl := List.mem_singleton.mp hj
    exact ⟨_, rfl, rfl⟩
  ancestors := le_rfl
  bounded := le_rfl

theorem migratedDb_books : Books migratedDb := ⟨by simp [migratedDb], by simp [migratedDb], by simp [migratedDb]⟩

end Runs

end Incudal
