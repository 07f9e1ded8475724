/-
# `CouponTables` — what the coupon tables keep

`CouponDb.Kept` is kept by issuing, reserving and releasing, whoever calls them
and for whatever instance: coupons and usages have their keys, a coupon counts
its purchases, and it stays within its limit of redemptions.
-/
import Incudal.OfficialCoupons

namespace Incudal

/-! ## What the table functions keep -/

/-- Coupons and usages have their keys, every usage has its coupon, and a coupon
counts its purchases and stays within its limit. -/
structure CouponDb.Kept (db : CouponDb) : Prop where
  ids : (db.coupons.map OfficialCoupon.id).Nodup
  codes : (db.coupons.map OfficialCoupon.code).Nodup
  usageIds : (db.usages.map fun usage => usage.id).Nodup
  fresh : ∀ usage ∈ db.usages, usage.id < db.nextUsageId
  known : ∀ usage ∈ db.usages, ∃ coupon ∈ db.coupons, coupon.id = usage.couponId
  counts : ∀ coupon ∈ db.coupons,
    coupon.usedCount = db.usages.countP (·.isPurchaseOf coupon.id)
  limits : ∀ coupon ∈ db.coupons, ∀ limit, coupon.totalUsageLimit = some limit →
    coupon.usedCount ≤ limit

/-- The two tables are as they were. -/
structure CouponDb.SameTables (db db' : CouponDb) : Prop where
  coupons : db'.coupons = db.coupons
  usages : db'.usages = db.usages
  nextUsageId : db'.nextUsageId = db.nextUsageId

section Tables

variable {db db' : CouponDb} {now : Time} {coupon : OfficialCoupon} {params : UsageReservation}
  {instanceId : ℕ} {released : Option Cents}

theorem CouponDb.Kept.same (h : db.Kept) (hsame : db.SameTables db') : db'.Kept where
  ids := hsame.coupons ▸ h.ids
  codes := hsame.coupons ▸ h.codes
  usageIds := hsame.usages ▸ h.usageIds
  fresh := by
    rw [hsame.usages, hsame.nextUsageId]
    exact h.fresh
  known := by
    rw [hsame.usages, hsame.coupons]
    exact h.known
  counts := by
    rw [hsame.usages, hsame.coupons]
    exact h.counts
  limits := hsame.coupons ▸ h.limits

/-- A coupon is issued with no redemptions, and nothing was redeemed with it before. -/
theorem CouponDb.Kept.createOfficialCoupon (h : db.Kept)
    (hcreate : db.createOfficialCoupon coupon = some db') : db'.Kept := by
  simp only [CouponDb.createOfficialCoupon] at hcreate
  split at hcreate
  · rename_i hnew
    obtain rfl := Option.some.inj hcreate
    simp only [Bool.and_eq_true, OfficialCoupon.isIssuable, List.all_eq_true, bne_iff_ne,
      beq_iff_eq] at hnew
    obtain ⟨⟨⟨hzero, -⟩, -⟩, hother⟩ := hnew
    have hunused : db.usages.countP (·.isPurchaseOf coupon.id) = 0 := by
      refine List.countP_eq_zero.mpr fun usage husage hof => ?_
      obtain ⟨other, hmem, hid⟩ := h.known usage husage
      simp only [OfficialCouponUsage.isPurchaseOf, Bool.and_eq_true, beq_iff_eq] at hof
      exact (hother other hmem).1 (hid.trans hof.1)
    refine ⟨Keyed.nodup_append_singleton h.ids fun other hmem => (hother other hmem).1,
      Keyed.nodup_append_singleton h.codes fun other hmem => (hother other hmem).2,
      h.usageIds, h.fresh, fun usage husage => ?_, fun c hc => ?_, fun c hc limit hlimit => ?_⟩
    · obtain ⟨other, hmem, hid⟩ := h.known usage husage
      exact ⟨other, List.mem_append_left _ hmem, hid⟩
    · rcases List.mem_append.mp hc with hold | hnew
      · exact h.counts c hold
      · obtain rfl := List.mem_singleton.mp hnew
        exact hzero.trans hunused.symm
    · rcases List.mem_append.mp hc with hold | hnew
      · exact h.limits c hold limit hlimit
      · obtain rfl := List.mem_singleton.mp hnew
        rw [hzero]
        exact Nat.zero_le _
  · cases hcreate

/-- What a reservation makes of the rows of the coupons. -/
theorem Reserved.row (h : db.Kept) (hr : Reserved db db' now params coupon) {c' : OfficialCoupon}
    (hc' : c' ∈ db'.coupons) :
    ∃ c ∈ db.coupons,
      c' = { c with usedCount := c.usedCount
        + if (params.usage db.nextUsageId coupon.id now).isPurchaseOf c.id then 1 else 0 } ∧
      ((params.usage db.nextUsageId coupon.id now).isPurchaseOf c.id = true →
        c = coupon ∧ params.mode = .purchase) := by
  have hmem := (Keyed.mem_of_lookup hr.coupon_eq).1
  rw [hr.coupons] at hc'
  split at hc'
  · rename_i hmode
    refine ⟨c', hc', ?_, ?_⟩
    · simp [UsageReservation.usage, OfficialCouponUsage.isPurchaseOf, hmode]
    · simp [UsageReservation.usage, OfficialCouponUsage.isPurchaseOf, hmode]
  · rename_i hmode
    have hpurchase : params.mode = .purchase := by
      cases hm : params.mode with
      | purchase => rfl
      | renewal => exact absurd hm hmode
    obtain ⟨c, hc, rfl⟩ := Keyed.mem_modify.mp hc'
    refine ⟨c, hc, ?_, ?_⟩
    · by_cases hid : c.id = coupon.id
      · simp [UsageReservation.usage, OfficialCouponUsage.isPurchaseOf, hpurchase, hid,
          OfficialCoupon.redeemed]
      · simp [UsageReservation.usage, OfficialCouponUsage.isPurchaseOf, hid, Ne.symm hid]
    · intro hof
      simp only [OfficialCouponUsage.isPurchaseOf, UsageReservation.usage, Bool.and_eq_true,
        beq_iff_eq] at hof
      have hc2 := Keyed.lookup_of_mem h.ids hc
      rw [← hof.1, Keyed.lookup_of_mem h.ids hmem] at hc2
      exact ⟨(Option.some.inj hc2).symm, hpurchase⟩

/-- A reservation keeps what the tables keep, for a purchase as for a renewal. -/
theorem CouponDb.Kept.reserve (h : db.Kept) (hr : Reserved db db' now params coupon) :
    db'.Kept := by
  have hmem := (Keyed.mem_of_lookup hr.coupon_eq).1
  have hkeys {β : Type} (g : OfficialCoupon → β) (hg : ∀ c, g c.redeemed = g c) :
      db'.coupons.map g = db.coupons.map g := by
    rw [hr.coupons]
    split
    · rfl
    · exact Keyed.map_modify_same hg
  have hfresh : ∀ usage ∈ db.usages, usage.id ≠ db.nextUsageId :=
    fun usage husage => (h.fresh usage husage).ne
  refine ⟨?_, ?_, ?_, fun usage husage => ?_, fun usage husage => ?_, fun c' hc' => ?_,
    fun c' hc' limit hlimit => ?_⟩
  · rw [hkeys _ fun _ => rfl]
    exact h.ids
  · rw [hkeys _ fun _ => rfl]
    exact h.codes
  · rw [hr.usages]
    exact Keyed.nodup_append_singleton h.usageIds hfresh
  · rw [hr.usages] at husage
    rw [hr.nextUsageId]
    exact Keyed.below_concat h.fresh (Nat.le_succ _) (Nat.lt_succ_self _) usage husage
  · have hid : ∃ c ∈ db.coupons, c.id = usage.couponId := by
      rw [hr.usages] at husage
      rcases List.mem_append.mp husage with hold | hnew
      · exact h.known usage hold
      · obtain rfl := List.mem_singleton.mp hnew
        exact ⟨coupon, hmem, rfl⟩
    have hin : usage.couponId ∈ db'.coupons.map OfficialCoupon.id := by
      obtain ⟨c, hc, hcid⟩ := hid
      rw [hkeys _ fun _ => rfl]
      exact List.mem_map.mpr ⟨c, hc, hcid⟩
    exact List.mem_map.mp hin
  · obtain ⟨c, hc, rfl, -⟩ := hr.row h hc'
    rw [hr.usages, List.countP_append, List.countP_singleton]
    show c.usedCount + _ = _
    rw [h.counts c hc]
  · obtain ⟨c, hc, rfl, hof⟩ := hr.row h hc'
    show c.usedCount + _ ≤ limit
    split
    · rename_i hpurchase
      obtain ⟨rfl, hmode⟩ := hof hpurchase
      have hleft := hr.left hmode
      rw [show c.totalUsageLimit = some limit from hlimit] at hleft
      exact Nat.succ_le_of_lt (by simpa using hleft)
    · exact h.limits c hc limit hlimit

/-- A release gives back what it takes out of the usages. -/
theorem CouponDb.Kept.release (h : db.Kept)
    (hr : db.releaseOfficialCouponUsageByInstance instanceId = .ok (db', released)) :
    db'.Kept := by
  rcases releaseUsages_spec hr with ⟨-, rfl⟩ | rfl
  · exact h
  · have hkeep : ∀ usage ∈ db.usages.filter fun usage => usage.instanceId != some instanceId,
        usage ∈ db.usages := fun usage husage => List.mem_of_mem_filter husage
    refine ⟨?_, ?_, ?_, fun usage husage => h.fresh usage (hkeep usage husage),
      fun usage husage => ?_, fun c' hc' => ?_, fun c' hc' limit hlimit => ?_⟩
    · simpa [Function.comp_def] using h.ids
    · simpa [Function.comp_def] using h.codes
    · exact h.usageIds.sublist (List.Sublist.map _ List.filter_sublist)
    · obtain ⟨c, hc, hid⟩ := h.known usage (hkeep usage husage)
      exact ⟨_, List.mem_map_of_mem hc, hid⟩
    · obtain ⟨c, hc, rfl⟩ := List.mem_map.mp hc'
      have hsplit := List.countP_eq_countP_filter_add db.usages (·.isPurchaseOf c.id)
        fun usage => usage.instanceId == some instanceId
      have hcount := h.counts c hc
      simp only [CouponDb.usagesOf, bne]
      omega
    · obtain ⟨c, hc, rfl⟩ := List.mem_map.mp hc'
      exact (Nat.sub_le _ _).trans (h.limits c hc limit hlimit)

end Tables

end Incudal
