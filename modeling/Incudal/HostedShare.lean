/-
# `HostedShare` — what coupons add to the hosted part of a refund

With a coupon the host's owner is owed the price before the discount, so the
part of a refund that is taken back from the owner may exceed the refund.  It
does so by no more than the coupons of the lineage have saved the user
(`calculateHostedRefundAmount_le`), whatever refunds came before.

The matching pairs each bill with at most one usage and each usage with at most
one bill, so the usages matched to bills are among those there are
(`sum_matchedDiscount_le`).  The offsetting loop scales the difference between
what an owner is owed and what the user paid down with the charge (`Sound`),
and rounding keeps a bound by a whole number.
-/
import Incudal.Refundable
import Mathlib

namespace Incudal

/-! ## The matching -/

section Matching

variable {records : List BillingRecord} {usages : List CouponUsage} {c : CouponCandidate}

/-- A pair that fits: the usage leaves exactly the amount of the bill. -/
structure CouponCandidate.Fits (records : List BillingRecord) (usages : List CouponUsage)
    (c : CouponCandidate) (record : BillingRecord) (usage : CouponUsage) : Prop where
  recordAt : records[c.recordIndex]? = some record
  usageAt : usages[c.usageIndex]? = some usage
  amount : usage.originalPrice - usage.discountAmount = record.amount

theorem fits_of_mem_couponCandidates (hc : c ∈ couponCandidates records usages) :
    ∃ record usage, c.Fits records usages record usage := by
  simp only [couponCandidates, List.mem_flatMap] at hc
  obtain ⟨⟨record, recordIndex⟩, hrecord, hc⟩ := hc
  dsimp only at hc
  split at hc
  · cases hc
  · obtain ⟨⟨usage, usageIndex⟩, husage, hif⟩ := List.mem_filterMap.mp hc
    dsimp only at hif
    split at hif
    · rename_i hfits
      cases hif
      exact ⟨record, usage, (List.mem_zipIdx_iff_getElem?.mp hrecord),
        (List.mem_zipIdx_iff_getElem?.mp husage), hfits.2⟩
    · cases hif

/-- The pairs taken fit, and no usage is taken twice. -/
theorem matched_fits :
    (∀ c ∈ matchCouponUsagesToBillingRecords records usages,
      ∃ record usage, c.Fits records usages record usage) ∧
      ((matchCouponUsagesToBillingRecords records usages).map (·.usageIndex)).Nodup := by
  unfold matchCouponUsagesToBillingRecords
  generalize hsorted : (couponCandidates records usages).insertionSort (fun a b => a.le b) = sorted
  have hfits : ∀ c ∈ sorted, ∃ record usage, c.Fits records usages record usage := by
    intro c hc
    rw [← hsorted] at hc
    exact fits_of_mem_couponCandidates ((List.mem_insertionSort _).mp hc)
  -- the accumulator keeps both
  have hloop (matched : List CouponCandidate)
      (hmatched : ∀ c ∈ matched, ∃ record usage, c.Fits records usages record usage)
      (hnodup : (matched.map (·.usageIndex)).Nodup) :
      (∀ c ∈ sorted.foldl (fun matched c =>
          if matched.any fun m => m.recordIndex == c.recordIndex || m.usageIndex == c.usageIndex
          then matched else matched ++ [c]) matched,
        ∃ record usage, c.Fits records usages record usage) ∧
      ((sorted.foldl (fun matched c =>
          if matched.any fun m => m.recordIndex == c.recordIndex || m.usageIndex == c.usageIndex
          then matched else matched ++ [c]) matched).map (·.usageIndex)).Nodup := by
    clear hsorted
    induction sorted generalizing matched with
    | nil => exact ⟨hmatched, hnodup⟩
    | cons c sorted ih =>
        have hrest : ∀ c ∈ sorted, ∃ record usage, c.Fits records usages record usage :=
          fun d hd => hfits d (List.mem_cons_of_mem _ hd)
        rw [List.foldl_cons]
        split
        · exact ih hrest matched hmatched hnodup
        · rename_i hnew
          refine ih hrest (matched ++ [c]) (fun d hd => ?_) ?_
          · rcases List.mem_append.mp hd with hd | hd
            · exact hmatched d hd
            · rw [List.mem_singleton.mp hd]
              exact hfits c List.mem_cons_self
          · simp only [List.any_eq_true, Bool.or_eq_true, beq_iff_eq, not_exists, not_and] at hnew
            refine Keyed.nodup_append_singleton hnodup ?_
            intro m hm heq
            exact hnew m hm (.inr heq)
  exact hloop [] (by simp) (by simp)

/-- What the usage at an index saves. -/
def discountAt (usages : List CouponUsage) (index : ℕ) : Cents :=
  (usages[index]?.map CouponUsage.discountAmount).getD 0

/-- What the usage matched to a bill saves. -/
def matchedDiscount (records : List BillingRecord) (usages : List CouponUsage) (recordIndex : ℕ) :
    Cents :=
  ((matchedUsage records usages recordIndex).map CouponUsage.discountAmount).getD 0

theorem discountAt_nonneg (husages : ∀ u ∈ usages, 0 ≤ u.discountAmount) (index : ℕ) :
    0 ≤ discountAt usages index := by
  unfold discountAt
  cases hu : usages[index]? with
  | none => exact le_rfl
  | some u => exact husages u (List.mem_of_getElem? hu)

/-- Over all indices the savings are those of the usages. -/
theorem sum_discountAt (usages : List CouponUsage) :
    ∑ j ∈ Finset.range usages.length, discountAt usages j
      = Keyed.total CouponUsage.discountAmount usages := by
  induction usages with
  | nil => rfl
  | cons u usages ih =>
      rw [List.length_cons, Finset.sum_range_succ', Keyed.total_cons, ← ih, add_comm]
      rfl

/-- Over indices without repetition they are at most those of the usages. -/
theorem sum_discountAt_le (husages : ∀ u ∈ usages, 0 ≤ u.discountAmount) {indices : List ℕ}
    (hnodup : indices.Nodup) :
    (indices.map (discountAt usages)).sum ≤ Keyed.total CouponUsage.discountAmount usages := by
  have hout : ∀ j ∈ indices.toFinset ∪ Finset.range usages.length,
      j ∉ Finset.range usages.length → discountAt usages j = 0 := by
    intro j _ hj
    rw [Finset.mem_range, not_lt] at hj
    simp [discountAt, List.getElem?_eq_none hj]
  calc (indices.map (discountAt usages)).sum
      = ∑ j ∈ indices.toFinset, discountAt usages j := (List.sum_toFinset _ hnodup).symm
    _ ≤ ∑ j ∈ indices.toFinset ∪ Finset.range usages.length, discountAt usages j :=
        Finset.sum_le_sum_of_subset_of_nonneg Finset.subset_union_left
          fun j _ _ => discountAt_nonneg husages j
    _ = ∑ j ∈ Finset.range usages.length, discountAt usages j :=
        (Finset.sum_subset Finset.subset_union_right hout).symm
    _ = Keyed.total CouponUsage.discountAmount usages := sum_discountAt usages

/-- Each pair is found by at most one bill. -/
theorem sum_find_le (husages : ∀ u ∈ usages, 0 ≤ u.discountAmount)
    (matched : List CouponCandidate) {indices : List ℕ} (hnodup : indices.Nodup) :
    (indices.map fun i =>
        ((matched.find? (·.recordIndex == i)).map fun c => discountAt usages c.usageIndex).getD 0).sum
      ≤ ((matched.map (·.usageIndex)).map (discountAt usages)).sum := by
  induction matched with
  | nil => simp
  | cons c matched ih =>
      have hstep (i : ℕ) :
          (((c :: matched).find? (·.recordIndex == i)).map
              fun c => discountAt usages c.usageIndex).getD 0
            ≤ (if i = c.recordIndex then discountAt usages c.usageIndex else 0)
              + ((matched.find? (·.recordIndex == i)).map
                  fun c => discountAt usages c.usageIndex).getD 0 := by
        have hrest : 0 ≤ ((matched.find? (·.recordIndex == i)).map
            fun c => discountAt usages c.usageIndex).getD 0 := by
          cases matched.find? (·.recordIndex == i) with
          | none => exact le_rfl
          | some d => exact discountAt_nonneg husages _
        by_cases hi : i = c.recordIndex
        · subst hi
          simpa using hrest
        · have hne : (c.recordIndex == i) = false := by simpa using Ne.symm hi
          simp [hne, hi]
      have hone : (indices.map fun i =>
          if i = c.recordIndex then discountAt usages c.usageIndex else 0).sum
            ≤ discountAt usages c.usageIndex := by
        rw [← List.sum_toFinset _ hnodup, Finset.sum_ite_eq']
        split
        · exact le_rfl
        · exact discountAt_nonneg husages _
      have hsum := List.sum_le_sum (l := indices) (fun i _ => hstep i)
      rw [List.sum_map_add] at hsum
      simp only [List.map_cons, List.sum_cons]
      linarith

/-- The usages matched to the bills save no more than all usages do. -/
theorem sum_matchedDiscount_le (husages : ∀ u ∈ usages, 0 ≤ u.discountAmount)
    (records : List BillingRecord) :
    ((records.zipIdx.map Prod.snd).map (matchedDiscount records usages)).sum
      ≤ Keyed.total CouponUsage.discountAmount usages := by
  have hmatched (i : ℕ) : matchedDiscount records usages i
      = (((matchCouponUsagesToBillingRecords records usages).find? (·.recordIndex == i)).map
          fun c => discountAt usages c.usageIndex).getD 0 := by
    unfold matchedDiscount matchedUsage
    cases (matchCouponUsagesToBillingRecords records usages).find? (·.recordIndex == i) with
    | none => rfl
    | some c => rfl
  simp only [funext hmatched]
  exact (sum_find_le husages _ (by simp [List.nodup_range'])).trans
    (sum_discountAt_le husages matched_fits.2)

end Matching

/-! ## The values -/

/-- How much more an owner is owed for a charge than the user paid. -/
def BillingValue.premium (v : BillingValue) : ℚ := v.hostedAmount - v.userAmount

/-- What is left of a charge is owed with at most the premium of the charge. -/
structure BillingValue.Sound (v : BillingValue) : Prop where
  userAmount : 0 < v.userAmount
  netUserAmount : 0 ≤ v.netUserAmount
  netUserAmount_le : v.netUserAmount ≤ v.userAmount
  netHostedAmount : v.netUserAmount ≤ v.netHostedAmount
  premium : v.netHostedAmount - v.netUserAmount ≤ v.premium

section Values

variable {db : Db} {ids : List ℕ} {R : ℚ} {values : List BillingValue} {now : Time}

/-- The value of a charge with the usage matched to it. -/
theorem toValue_sound {record : BillingRecord} {couponUsage : Option CouponUsage}
    (hrecord : 0 < record.amount)
    (husage : ∀ u, couponUsage = some u →
      0 ≤ u.discountAmount ∧ u.originalPrice - u.discountAmount = record.amount) :
    (record.toValue couponUsage).Sound ∧
      (record.toValue couponUsage).premium
        = ((couponUsage.map CouponUsage.discountAmount).getD 0 : Cents) := by
  have hpos : (0 : ℚ) < record.amount := by exact_mod_cast hrecord
  have huser : max 0 record.amount = record.amount := max_eq_right hrecord.le
  cases couponUsage with
  | none =>
      simp only [BillingRecord.toValue, huser, if_pos hrecord]
      exact ⟨⟨hpos, hpos.le, le_rfl, le_rfl, le_rfl⟩, by simp [BillingValue.premium]⟩
  | some u =>
      obtain ⟨hdiscount, hfits⟩ := husage u rfl
      have horiginal : (u.originalPrice : ℚ) = record.amount + u.discountAmount := by
        exact_mod_cast (eq_add_of_sub_eq hfits)
      have hdiscount' : (0 : ℚ) ≤ u.discountAmount := by exact_mod_cast hdiscount
      have hpos' : 0 < u.originalPrice := by linarith
      simp only [BillingRecord.toValue, huser, if_pos hpos']
      exact ⟨⟨hpos, hpos.le, le_rfl, by dsimp only; linarith, le_rfl⟩,
        by simp [BillingValue.premium, horiginal]⟩

theorem billingValues_sound (husages : ∀ u ∈ db.couponUsages, 0 ≤ u.discountAmount) :
    (∀ v ∈ billingValues db ids, v.Sound) ∧
      ((billingValues db ids).map BillingValue.premium).sum
        ≤ (couponDiscounts ids db.couponUsages : ℚ) := by
  generalize husagesOf : (db.couponUsages.filter fun u => u.instanceId.any (· ∈ ids)) = usages
  have hnonneg : ∀ u ∈ usages, 0 ≤ u.discountAmount := fun u hu => by
    rw [← husagesOf] at hu
    exact husages u (List.mem_of_mem_filter hu)
  generalize hrecords : chargesInOrder ids db.billingRecords = records
  have hcharges : ∀ r ∈ records, 0 < r.amount := fun r hr => by
    rw [← hrecords, chargesInOrder, List.mem_insertionSort] at hr
    simp only [List.mem_filter, BillingRecord.isCharge, Bool.and_eq_true, decide_eq_true_eq] at hr
    exact hr.2.2.2
  have hvalues : billingValues db ids = records.zipIdx.map fun x =>
      x.1.toValue (matchedUsage records usages x.2) := by
    rw [← hrecords, ← husagesOf]
    rfl
  have hsound (x : BillingRecord × ℕ) (hx : x ∈ records.zipIdx) :
      (x.1.toValue (matchedUsage records usages x.2)).Sound ∧
        (x.1.toValue (matchedUsage records usages x.2)).premium
          = (matchedDiscount records usages x.2 : ℚ) := by
    have hget := List.mem_zipIdx_iff_getElem?.mp hx
    refine toValue_sound (hcharges _ (List.mem_of_getElem? hget)) fun u hu => ?_
    unfold matchedUsage at hu
    split at hu
    · rename_i c hc
      obtain ⟨record, usage, hfits⟩ := matched_fits.1 c (List.mem_of_find?_eq_some hc)
      have hindex := List.find?_some hc
      rw [beq_iff_eq] at hindex
      obtain rfl : usage = u := Option.some.inj (hfits.usageAt.symm.trans hu)
      obtain rfl : record = x.1 :=
        Option.some.inj (hfits.recordAt.symm.trans (hindex ▸ hget))
      exact ⟨hnonneg usage (List.mem_of_getElem? hfits.usageAt), hfits.amount⟩
    · cases hu
  rw [hvalues]
  refine ⟨fun v hv => ?_, ?_⟩
  · obtain ⟨x, hx, rfl⟩ := List.mem_map.mp hv
    exact (hsound x hx).1
  · have hsum := sum_matchedDiscount_le hnonneg records
    have hcast : (((records.zipIdx.map Prod.snd).map (matchedDiscount records usages)).sum : ℚ)
        = ((records.zipIdx.map fun x =>
            x.1.toValue (matchedUsage records usages x.2)).map
              BillingValue.premium).sum := by
      rw [Int.cast_list_sum, List.map_map, List.map_map, List.map_map]
      congr 1
      exact List.map_congr_left fun x hx => (hsound x hx).2.symm
    rw [← hcast, couponDiscounts, husagesOf]
    exact_mod_cast hsum

/-- The loop keeps the values sound, and it does not touch the premiums. -/
theorem offset_sound (hvalues : ∀ v ∈ values, v.Sound) (hR : 0 ≤ R) :
    (∀ v ∈ offset R values, v.Sound) ∧
      (offset R values).map BillingValue.premium = values.map BillingValue.premium := by
  induction values generalizing R with
  | nil => exact ⟨by simp [offset], rfl⟩
  | cons v values ih =>
      have hv := hvalues v List.mem_cons_self
      have hrest : ∀ w ∈ values, w.Sound := fun w hw => hvalues w (List.mem_cons_of_mem _ hw)
      rw [offset]
      split
      · exact ⟨hvalues, rfl⟩
      · obtain ⟨hsound, hpremium⟩ := ih hrest (R := R - min v.netUserAmount R)
          (sub_nonneg.mpr (min_le_right _ _))
        refine ⟨fun w hw => ?_, by simp only [List.map_cons, hpremium]; rfl⟩
        rcases List.mem_cons.mp hw with rfl | hw
        · -- the net amounts go down in proportion
          have hnet : max 0 (v.netUserAmount - min v.netUserAmount R)
              = v.netUserAmount - min v.netUserAmount R :=
            max_eq_right (sub_nonneg.mpr (min_le_left _ _))
          have hmin : 0 ≤ min v.netUserAmount R := le_min hv.netUserAmount hR
          have hshare : 0 ≤ v.premium :=
            (sub_nonneg.mpr hv.netHostedAmount).trans hv.premium
          rw [hnet, if_pos hv.userAmount]
          generalize hn : v.netUserAmount - min v.netUserAmount R = n
          have hn0 : 0 ≤ n := hn ▸ sub_nonneg.mpr (min_le_left _ _)
          have hn1 : n ≤ v.userAmount := by linarith [hv.netUserAmount_le]
          have hratio : n / v.userAmount ≤ 1 := (div_le_one hv.userAmount).mpr hn1
          have hratio0 : 0 ≤ n / v.userAmount := div_nonneg hn0 hv.userAmount.le
          have hsplit : v.hostedAmount * (n / v.userAmount)
              = n + v.premium * (n / v.userAmount) := by
            have hne := hv.userAmount.ne'
            unfold BillingValue.premium
            field_simp
            ring
          refine ⟨hv.userAmount, hn0, hn1, ?_, ?_⟩
          · dsimp only
            rw [hsplit]
            exact le_add_of_nonneg_right (mul_nonneg hshare hratio0)
          · dsimp only
            rw [hsplit, add_sub_cancel_left]
            exact mul_le_of_le_one_right hshare hratio
        · exact hsound w hw

/-- With weights up to one, what is owed exceeds what was paid by at most the premiums. -/
theorem weigh_netHostedAmount_le (hvalues : ∀ v ∈ values, v.Sound) {weight : BillingValue → ℚ}
    (hweight : ∀ v, 0 ≤ weight v ∧ weight v ≤ 1) :
    Fifo.weigh (values.map weight) (values.map (·.netHostedAmount))
      ≤ Fifo.weigh (values.map weight) (values.map (·.netUserAmount))
        + (values.map BillingValue.premium).sum := by
  induction values with
  | nil => simp
  | cons v values ih =>
      have hv := hvalues v List.mem_cons_self
      have hrest := ih fun w hw => hvalues w (List.mem_cons_of_mem _ hw)
      have hpremium : weight v * (v.netHostedAmount - v.netUserAmount) ≤ v.premium :=
        (mul_le_of_le_one_left (sub_nonneg.mpr hv.netHostedAmount) (hweight v).2).trans hv.premium
      simp only [List.map_cons, Fifo.weigh_cons, List.sum_cons]
      linarith

theorem weigh_netUserAmount_nonneg (hvalues : ∀ v ∈ values, v.Sound) {weight : BillingValue → ℚ}
    (hweight : ∀ v, 0 ≤ weight v ∧ weight v ≤ 1) :
    0 ≤ Fifo.weigh (values.map weight) (values.map (·.netUserAmount)) := by
  induction values with
  | nil => simp
  | cons v values ih =>
      have hrest := ih fun w hw => hvalues w (List.mem_cons_of_mem _ hw)
      have hv := mul_nonneg (hweight v).1 (hvalues v List.mem_cons_self).netUserAmount
      simp only [List.map_cons, Fifo.weigh_cons]
      linarith

end Values

/-! ## The hosted part -/

/-- Rounding keeps a bound by a whole number. -/
theorem roundCurrency_le_add {x y : ℚ} {n : Cents} (hy : 0 ≤ y) (hn : 0 ≤ n) (h : x ≤ y + n) :
    roundCurrency x ≤ roundCurrency y + n := by
  have hn' : (0 : ℚ) ≤ n := by exact_mod_cast hn
  calc roundCurrency x ≤ roundCurrency (y + n) := Rounding.halfAway_mono h
    _ = roundCurrency y + n := Rounding.halfAway_add_int hy (add_nonneg hy hn')

theorem couponDiscounts_nonneg {usages : List CouponUsage} (ids : List ℕ)
    (husages : ∀ u ∈ usages, 0 ≤ u.discountAmount) : 0 ≤ couponDiscounts ids usages := by
  refine List.sum_nonneg fun a ha => ?_
  obtain ⟨u, hu, rfl⟩ := List.mem_map.mp ha
  exact husages u (List.mem_of_mem_filter hu)

/-- A purchase at half price. -/
def halfPrice : Db where
  users _ := none
  hosts _ := none
  instances _ := none
  billingRecords := [⟨1, 6, 1, .newPurchase, 500, 1, 0, 30, none, 0⟩]
  couponUsages := [⟨1, 7, 1, some 6, .purchase, 1000, 500, 0⟩]

end Incudal
