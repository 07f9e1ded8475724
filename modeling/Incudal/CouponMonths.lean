/-
# `CouponMonths` — the months a limited coupon is good for

In the limited mode a coupon discounts so many months of an instance, those of
the purchase and of the renewals together.  Each charge with a coupon writes a
usage with the months that its discount was computed for, and the next one is
computed from what the usages leave (`CouponChange`), so the sum stays within
the limit whatever is renewed (`discounted_months_bounded`).

Once the sum has reached the limit no renewal is discounted by the coupon.  It
is not always at full price: an AFF code bound to the instance then applies
(`renewed_with_aff_code`).
-/
import Incudal.CouponRuns
import Mathlib

namespace Incudal

/-! ## Charges and their usages -/

/-- The usage records the months whose price the charge discounted. -/
structure CouponCharge.Records (charge : CouponCharge) (usage : OfficialCouponUsage) : Prop where
  usageId : charge.usageId = some usage.id
  instanceId : usage.instanceId = some charge.instanceId
  originalPrice : usage.originalPrice = charge.originalAmount
  discountAmount : usage.discountAmount = charge.discountAmount
  discount : charge.discountAmount = calculateDiscountAmountForMonths charge.originalAmount
    charge.months usage.discountedMonths charge.discountRate
  months : usage.discountedMonths ≤ charge.months
  finalAmount : charge.finalAmount = charge.originalAmount - charge.discountAmount

/-- The coupon is limited to so many months. -/
def OfficialCoupon.LimitedTo (coupon : OfficialCoupon) (bound : ℤ) : Prop :=
  coupon.renewalMode = .limited ∧ coupon.discountedChargeLimit = some bound

/-- A limit is a month at least, the usages of an instance keep to it, and each
usage has its charge. -/
structure MonthsInv (w : CouponWorld) : Prop where
  base : CouponInv w
  positive : ∀ coupon ∈ w.promo.coupons, ∀ bound, coupon.LimitedTo bound → 1 ≤ bound
  bounded : ∀ coupon ∈ w.promo.coupons, ∀ bound, coupon.LimitedTo bound →
    ∀ k, (w.promo.countDiscountedMonthsForInstance coupon.id k : ℤ) ≤ bound
  recorded : ∀ usage ∈ w.promo.usages, ∃ charge ∈ w.charges, charge.Records usage

section Tables

variable {db db' : CouponDb} {now : Time} {coupon : OfficialCoupon} {params : UsageReservation}
  {k : ℕ} {bound : ℤ}

/-- Without usages of the instance no months are counted for it. -/
theorem months_eq_zero (db : CouponDb) (couponId : ℕ)
    (h : ∀ usage ∈ db.usages, usage.couponId ≠ couponId ∨ usage.instanceId ≠ some k) :
    db.countDiscountedMonthsForInstance couponId k = 0 := by
  have hnone : (db.usages.filter fun usage =>
      usage.couponId == couponId && usage.instanceId == some k) = [] := by
    refine List.filter_eq_nil_iff.mpr fun usage husage hboth => ?_
    simp only [Bool.and_eq_true, beq_iff_eq] at hboth
    rcases h usage husage with hne | hne
    · exact hne hboth.1
    · exact hne hboth.2
  simp only [CouponDb.countDiscountedMonthsForInstance, hnone, List.map_nil, List.sum_nil]

/-- A reservation adds its months to those of its coupon and instance. -/
theorem Reserved.months_add (h : Reserved db db' now params coupon) (couponId k : ℕ) :
    db'.countDiscountedMonthsForInstance couponId k
      = db.countDiscountedMonthsForInstance couponId k
        + if coupon.id = couponId ∧ params.instanceId = k then params.discountedMonths else 0 := by
  simp only [CouponDb.countDiscountedMonthsForInstance, h.usages, List.filter_append,
    List.map_append, List.sum_append]
  congr 1
  by_cases hboth : coupon.id = couponId ∧ params.instanceId = k
  · obtain ⟨rfl, rfl⟩ := hboth
    simp [UsageReservation.usage]
  · rw [if_neg hboth]
    rw [not_and_or] at hboth
    rcases hboth with hne | hne <;> simp [UsageReservation.usage, hne]

/-- What a reservation makes of a coupon has the terms it had. -/
theorem Reserved.terms (hkept : db.Kept) (h : Reserved db db' now params coupon)
    {c' : OfficialCoupon} (hc' : c' ∈ db'.coupons) (hlimited : c'.LimitedTo bound) :
    ∃ c ∈ db.coupons, c.LimitedTo bound ∧ c.id = c'.id := by
  obtain ⟨c, hc, rfl, -⟩ := h.row hkept hc'
  exact ⟨c, hc, hlimited, rfl⟩

/-- Coupons with one id are one coupon. -/
theorem CouponDb.Kept.eq_of_id (h : db.Kept) {c d : OfficialCoupon} (hc : c ∈ db.coupons)
    (hd : d ∈ db.coupons) (hid : c.id = d.id) : c = d :=
  List.inj_on_of_nodup_map h.ids hc hd hid

end Tables

/-! ## One step -/

section Steps

variable {w w' : CouponWorld} {event : CouponEvent} {charge : CouponCharge}

/-- A usage that was there has its charge still. -/
theorem recorded_cons (h : ∀ usage ∈ w.promo.usages, ∃ charge ∈ w.charges, charge.Records usage)
    (hcharges : w'.charges = charge :: w.charges) :
    ∀ usage ∈ w.promo.usages, ∃ charge ∈ w'.charges, charge.Records usage := by
  intro usage husage
  obtain ⟨c, hc, hrecords⟩ := h usage husage
  exact ⟨c, hcharges ▸ List.mem_cons_of_mem _ hc, hrecords⟩

/-- The coupons and usages stay. -/
theorem MonthsInv.same (hw : MonthsInv w) (hbase : CouponInv w')
    (htables : w.promo.SameTables w'.promo.toCouponDb)
    (hrecorded : ∀ usage ∈ w.promo.usages, ∃ charge ∈ w'.charges, charge.Records usage) :
    MonthsInv w' := by
  refine ⟨hbase, ?_, ?_, ?_⟩
  · rw [htables.coupons]
    exact hw.positive
  · rw [htables.coupons]
    intro coupon hcoupon bound hlimited k
    have hcount : w'.promo.countDiscountedMonthsForInstance coupon.id k
        = w.promo.countDiscountedMonthsForInstance coupon.id k := by
      simp only [CouponDb.countDiscountedMonthsForInstance, htables.usages]
    rw [hcount]
    exact hw.bounded coupon hcoupon bound hlimited k
  · rw [htables.usages]
    exact hrecorded

/-- A charge with a coupon whose months keep to the limit. -/
theorem MonthsInv.addCharge {params : UsageReservation} {coupon : OfficialCoupon} (hw : MonthsInv w)
    (hbase : CouponInv w')
    (hreserved : Reserved w.promo.toCouponDb w'.promo.toCouponDb w.now params coupon)
    (hcharges : w'.charges = charge :: w.charges)
    (hcharge : charge.ChargedWith params w.promo.nextUsageId)
    (hmonths : ∀ bound, coupon.LimitedTo bound →
      (w.promo.countDiscountedMonthsForInstance coupon.id params.instanceId
        + params.discountedMonths : ℤ) ≤ bound) : MonthsInv w' := by
  have hmem := (Keyed.mem_of_lookup hreserved.coupon_eq).1
  refine ⟨hbase, ?_, ?_, ?_⟩
  · intro c' hc' bound hlimited
    obtain ⟨c, hc, hlimited', -⟩ := hreserved.terms hw.base.kept hc' hlimited
    exact hw.positive c hc bound hlimited'
  · intro c' hc' bound hlimited k
    obtain ⟨c, hc, hlimited', hid⟩ := hreserved.terms hw.base.kept hc' hlimited
    rw [← hid, hreserved.months_add]
    split
    · rename_i hboth
      obtain ⟨hcid, rfl⟩ := hboth
      obtain rfl := hw.base.kept.eq_of_id hmem hc hcid
      push_cast
      exact hmonths bound hlimited'
    · rw [Nat.add_zero]
      exact hw.bounded c hc bound hlimited' k
  · intro usage husage
    rw [hreserved.usages] at husage
    rcases List.mem_append.mp husage with hold | hadded
    · exact recorded_cons hw.recorded hcharges usage hold
    · obtain rfl := List.mem_singleton.mp hadded
      refine ⟨charge, hcharges ▸ List.mem_cons_self, ?_⟩
      exact ⟨hcharge.usageId, by rw [hcharge.instanceId]; rfl, hcharge.originalAmount.symm,
        hcharge.discountAmount.symm, hcharge.discount, hcharge.months, hcharge.finalAmount⟩

theorem MonthsInv.step (hw : MonthsInv w) (h : couponStep w event = some w') : MonthsInv w' := by
  have hbase := hw.base.step h
  cases couponChange_of_step h with
  | quiet htables _ hcharges => exact hw.same hbase htables (hcharges ▸ hw.recorded)
  | issued coupon hcreate _ hcharges =>
      simp only [CouponDb.createOfficialCoupon] at hcreate
      split at hcreate
      · rename_i hnew
        simp only [Bool.and_eq_true, OfficialCoupon.isIssuable, List.all_eq_true, bne_iff_ne,
          Bool.or_eq_true] at hnew
        obtain ⟨⟨-, hlimit⟩, hother⟩ := hnew
        have hdb := Option.some.inj hcreate
        have hpositive : ∀ bound, coupon.LimitedTo bound → 1 ≤ bound := by
          rintro bound ⟨hmode, hbound⟩
          rcases hlimit with hne | hle
          · exact absurd hmode hne
          · simpa [hbound] using hle
        refine ⟨hbase, ?_, ?_, ?_⟩
        · rw [← hdb]
          intro c hc bound hlimited
          rcases List.mem_append.mp hc with hold | hadded
          · exact hw.positive c hold bound hlimited
          · obtain rfl := List.mem_singleton.mp hadded
            exact hpositive bound hlimited
        · rw [← hdb]
          intro c hc bound hlimited k
          rcases List.mem_append.mp hc with hold | hadded
          · exact hw.bounded c hold bound hlimited k
          · obtain rfl := List.mem_singleton.mp hadded
            have hzero : w.promo.countDiscountedMonthsForInstance c.id k = 0 := by
              refine months_eq_zero _ _ fun usage husage => .inl fun hid => ?_
              obtain ⟨other, hmem, hother'⟩ := hw.base.kept.known usage husage
              exact (hother other hmem).1 (hother'.trans hid)
            have := hpositive bound hlimited
            show (w.promo.countDiscountedMonthsForInstance c.id k : ℤ) ≤ bound
            rw [hzero]
            push_cast
            omega
        · rw [← hdb, hcharges]
          exact hw.recorded
      · cases hcreate
  | bought k charge _ htables _ hcharges _ =>
      exact hw.same hbase htables (recorded_cons hw.recorded hcharges)
  | redeemed params coupon charge hbefore hreserved _ hmonths _ hcharges hcharge =>
      refine hw.addCharge hbase hreserved hcharges hcharge fun bound hlimited => ?_
      have hmem := (Keyed.mem_of_lookup hreserved.coupon_eq).1
      have hnone := months_eq_zero w.promo.toCouponDb coupon.id fun usage husage =>
        .inr (hw.base.no_usage hbefore usage husage)
      rw [hnone, hmonths, hlimited.1, hlimited.2, Nat.cast_zero, zero_add]
      exact purchase_months_le (by have := hw.positive coupon hmem bound hlimited; omega)
  | moved k s s' _ _ _ htables _ hcharges =>
      exact hw.same hbase htables (hcharges ▸ hw.recorded)
  | released k discount _ hrelease _ hcharges =>
      rcases releaseUsages_spec hrelease with ⟨-, hsame⟩ | hgone
      · exact hw.same hbase (hsame ▸ .refl _) (hcharges ▸ hw.recorded)
      · refine ⟨hbase, ?_, ?_, ?_⟩ <;> rw [hgone]
        · intro c' hc' bound hlimited
          obtain ⟨c, hc, rfl⟩ := List.mem_map.mp hc'
          exact hw.positive c hc bound hlimited
        · intro c' hc' bound hlimited j
          obtain ⟨c, hc, rfl⟩ := List.mem_map.mp hc'
          refine le_trans ?_ (hw.bounded c hc bound hlimited j)
          refine Nat.cast_le.mpr (List.Sublist.sum_le_sum ?_ fun _ _ => Nat.zero_le _)
          exact ((List.filter_sublist).filter _).map _
        · intro usage husage
          rw [hcharges]
          exact hw.recorded usage (List.mem_of_mem_filter husage)
  | renewed k s s' charge _ _ _ htables _ hcharges _ =>
      exact hw.same hbase htables (recorded_cons hw.recorded hcharges)
  | continued params coupon found s s' charge _ _ _ hfound hcode hreserved _ hmonths _ hcharges
      hcharge =>
      refine hw.addCharge hbase hreserved hcharges hcharge fun bound hlimited => ?_
      -- the code of the purchase's coupon finds that coupon
      have hagain := hreserved.coupon_eq
      rw [hcode, Keyed.lookup_of_mem hw.base.kept.codes hfound] at hagain
      obtain rfl := Option.some.inj hagain
      rw [hmonths, hlimited.1, hlimited.2]
      exact renewal_months_le (hw.bounded found hfound bound hlimited _)

end Steps

/-! ## Over whole runs -/

section Runs

variable {w₀ w w' : CouponWorld} {instanceId months : ℕ} {coupon : OfficialCoupon} {bound : ℤ}

theorem CouponWorld.Start.monthsInv (h : w₀.Start) : MonthsInv w₀ := by
  refine ⟨h.inv, ?_, ?_, ?_⟩ <;> simp [h.coupons, h.usages]

/-- Once the months are used up no renewal is discounted by the coupon, and without
an AFF code that applies it is at full price. -/
theorem renewal_after_limit {inst : PricedInstance}
    (hcoupon : w.promo.getInstancePurchaseCoupon inst.id = some coupon)
    (hlimited : coupon.LimitedTo bound)
    (hused : bound ≤ w.promo.countDiscountedMonthsForInstance coupon.id inst.id)
    (h : w.renew inst months = some w') :
    ∃ charge, w'.charges = charge :: w.charges ∧ charge.instanceId = inst.id ∧
      charge.source ≠ some .officialCoupon ∧
      (w.promo.usableAff (inst.discountInput inst.userId) = none →
        charge.finalAmount = charge.originalAmount) := by
  have hnone : w.promo.usableOfficialCoupon w.now (inst.discountInput inst.userId) (some months)
      = none := by
    cases husable : w.promo.usableOfficialCoupon w.now (inst.discountInput inst.userId)
        (some months) with
    | none => rfl
    | some found =>
        obtain ⟨-, -, hfound, hpos⟩ := usableOfficialCoupon_spec husable
        obtain rfl := Option.some.inj (hcoupon.symm.trans hfound)
        simp only [getDiscountedMonthsForRenewal, getRemainingDiscountedMonths, hlimited.1,
          hlimited.2, PricedInstance.discountInput] at hpos
        split at hpos
        · omega
        · split at hpos
          · rename_i hunlimited
            split at hunlimited <;> cases hunlimited
          · rename_i remaining hremaining
            split at hremaining
            · obtain rfl := Option.some.inj hremaining
              omega
            · obtain rfl := Option.some.inj hremaining
              omega
  simp only [CouponWorld.renew] at h
  split at h
  · cases h
  · split at h
    · cases h
    · obtain rfl := Option.some.inj h
      refine ⟨_, rfl, rfl, ?_, fun haff => ?_⟩
      · simp only [PromoDb.resolveInstanceRenewalDiscount, hnone]
        split
        · rintro ⟨⟩
        · rename_i husable _
          cases husable
        · rintro ⟨⟩
        · rintro ⟨⟩
      · simp only [PromoDb.resolveInstanceRenewalDiscount, hnone, haff]

/-- The sum of the discounted months stays within the limit, every usage records
the months that its charge discounted, and once the limit is reached no renewal is
discounted by the coupon. -/
structure CouponWorld.MonthsKept (w : CouponWorld) : Prop where
  bounded : ∀ coupon ∈ w.promo.coupons, ∀ bound, coupon.LimitedTo bound → ∀ instanceId,
    (w.promo.countDiscountedMonthsForInstance coupon.id instanceId : ℤ) ≤ bound
  recorded : ∀ usage ∈ w.promo.usages, ∃ charge ∈ w.charges, charge.Records usage
  afterLimit : ∀ inst, Keyed.lookup PricedInstance.id inst.id w.instances = some inst →
    ∀ coupon bound, w.promo.getInstancePurchaseCoupon inst.id = some coupon →
    coupon.LimitedTo bound →
    bound ≤ w.promo.countDiscountedMonthsForInstance coupon.id inst.id →
    ∀ months w', couponStep w (.renew inst.id months) = some w' →
    ∃ charge, w'.charges = charge :: w.charges ∧ charge.instanceId = inst.id ∧
      charge.source ≠ some .officialCoupon ∧
      (w.promo.usableAff (inst.discountInput inst.userId) = none →
        charge.finalAmount = charge.originalAmount)

theorem discounted_months_bounded (h₀ : w₀.Start)
    (h : Machine.Reach couponStep Machine.free w₀ w) : w.MonthsKept := by
  have hinv : MonthsInv w := by
    refine h.invariant h₀.monthsInv ?_
    intro v v' event hv _ hstep
    exact hv.step hstep
  refine ⟨hinv.bounded, hinv.recorded, ?_⟩
  intro inst hrow coupon bound hcoupon hlimited hused months w' hstep
  simp only [couponStep, hrow] at hstep
  exact renewal_after_limit hcoupon hlimited hused hstep

end Runs

/-! ### Two runs -/

/-- Half off for two months. -/
def twoMonthCoupon : OfficialCoupon where
  id := 1
  code := "PROMO"
  discountRate := ⟨1 / 2, by norm_num, by norm_num⟩
  renewalMode := .limited
  discountedChargeLimit := some 2

/-- A purchase and a renewal by three months, of which one is discounted: 5.00 and
25.00 are paid, and the next month is 10.00. -/
theorem discounted_months_bounded_mixed : ∃ w : CouponWorld,
    w.charges.map (fun charge => (charge.months, charge.finalAmount))
      = [(1, 1000), (3, 2500), (1, 500)] ∧
    w.promo.usages.map OfficialCouponUsage.discountedMonths = [1, 1] ∧ w.MonthsKept := by
  have hrun : (Machine.exec couponStep emptyCouponWorld
      [.setPackageScope 1 (some .official), .createCoupon twoMonthCoupon,
        .purchase promotedInstance (some "PROMO") none, .provisioned 1, .renew 1 3,
        .renew 1 1]).map
      (fun w => (w.charges.map (fun charge => (charge.months, charge.finalAmount)),
        w.promo.usages.map OfficialCouponUsage.discountedMonths))
      = some ([(1, 1000), (3, 2500), (1, 500)], [1, 1]) := by decide +kernel
  obtain ⟨w, hw, hvalues⟩ := Option.map_eq_some_iff.mp hrun
  obtain ⟨hcharges, hmonths⟩ := Prod.mk.inj hvalues
  exact ⟨w, hcharges, hmonths,
    discounted_months_bounded emptyCouponWorld_start (Machine.reach_of_exec hw)⟩

/-- The months of the coupon are used up, an AFF code is bound to the instance, and
the next renewal is discounted by it: 9.50 for a price of 10.00. -/
theorem renewed_with_aff_code : ∃ w w' : CouponWorld,
    Machine.Reach couponStep Machine.free emptyCouponWorld w ∧
    w.promo.getInstancePurchaseCoupon 1 = some { twoMonthCoupon with usedCount := 1 } ∧
    w.promo.countDiscountedMonthsForInstance 1 1 = 2 ∧
    couponStep w (.renew 1 1) = some w' ∧
    (w'.charges.map fun charge => (charge.originalAmount, charge.finalAmount)).head?
      = some (1000, 950) := by
  have hrun : (Machine.exec couponStep emptyCouponWorld
      [.setPackageScope 1 (some .official), .createCoupon twoMonthCoupon,
        .purchase promotedInstance (some "PROMO") none, .provisioned 1, .renew 1 1,
        .setAff true [{ id := 1, discountRate := ⟨1 / 20, by norm_num, by norm_num⟩ }]
          [{ instanceId := 1, affCodeId := 1 }]]).map
      (fun w => (w.promo.getInstancePurchaseCoupon 1,
        w.promo.countDiscountedMonthsForInstance 1 1,
        (couponStep w (.renew 1 1)).map fun w' =>
          (w'.charges.map fun charge => (charge.originalAmount, charge.finalAmount)).head?))
      = some (some { twoMonthCoupon with usedCount := 1 }, 2, some (some (1000, 950))) := by
    decide +kernel
  obtain ⟨w, hw, hvalues⟩ := Option.map_eq_some_iff.mp hrun
  obtain ⟨hcoupon, hrest⟩ := Prod.mk.inj hvalues
  obtain ⟨hmonths, hrenew⟩ := Prod.mk.inj hrest
  obtain ⟨w', hstep, hcharge⟩ := Option.map_eq_some_iff.mp hrenew
  exact ⟨w, w', Machine.reach_of_exec hw, hcoupon, hmonths, hstep, hcharge⟩

end Incudal
