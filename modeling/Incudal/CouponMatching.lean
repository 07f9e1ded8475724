/-
# `CouponMatching` — coupon usages and bills, nearest first

The matching of `BillingCalc` on the numbers that the source takes: the amounts are
rounded to cents before they are compared.  The pairs that fit are sorted by how far
apart they were written, and taken one by one unless the bill or the usage is taken
(`Lib.GreedyMatching`).

Hence no bill and no usage is matched twice, no two that fit are both left, and no
two that fit are nearer to each other than each is to what it was matched with
(`coupon_matching_stable`).
-/
import Incudal.BillingCalc
import Incudal.Lib.GreedyMatching
import Incudal.Lib.InsertionMap

namespace Incudal

/-! ## The matching -/

/-- A bill, as it is matched. -/
structure BilledAmount where
  type : BillingRecordType
  amount : ℚ
  createdAt : Time
deriving DecidableEq

/-- A usage of a coupon, as it is matched. -/
structure UsedCoupon where
  type : CouponUsageType
  originalPrice : ℚ
  discountAmount : ℚ
  createdAt : Time
deriving DecidableEq

/-- `Math.round(amount * 100)`, a half rounded up. -/
def centsOf (amount : ℚ) : Cents := round (amount * 100)

/-- A bill and a usage of compatible type and the same amount. -/
def couponFits (record : BilledAmount) (usage : UsedCoupon) : Prop :=
  usageTypeOf record.type = some usage.type ∧
    centsOf (usage.originalPrice - usage.discountAmount) = centsOf record.amount

instance (record : BilledAmount) (usage : UsedCoupon) : Decidable (couponFits record usage) :=
  inferInstanceAs (Decidable (_ ∧ _))

def couponDistance (record : BilledAmount) (usage : UsedCoupon) : ℤ :=
  |record.createdAt - usage.createdAt|

/-- The pairs that fit, in the order of the two loops. -/
def fittingCandidates (records : List BilledAmount) (usages : List UsedCoupon) :
    List CouponCandidate :=
  records.zipIdx.flatMap fun (record, recordIndex) =>
    match usageTypeOf record.type with
    | none => []
    | some usageType =>
        usages.zipIdx.filterMap fun (usage, usageIndex) =>
          if usage.type ≠ usageType then none
          else if centsOf (usage.originalPrice - usage.discountAmount) ≠ centsOf record.amount
          then none
          else some { distance := couponDistance record usage, recordIndex, usageIndex }

/-- `matched` and `usedUsages` of the loop. -/
structure CouponMatches where
  matched : List (ℕ × ℕ) := []
  usedUsages : List ℕ := []

def CouponMatches.next (s : CouponMatches) (c : CouponCandidate) : CouponMatches :=
  if (InsertionMap.get c.recordIndex s.matched).isSome ∨ c.usageIndex ∈ s.usedUsages then s
  else
    { matched := InsertionMap.set c.recordIndex c.usageIndex s.matched
      usedUsages := s.usedUsages ++ [c.usageIndex] }

/-- `matchCouponUsagesToBillingRecords`: for a bill the usage, by their indices. -/
def matchCouponUsages (records : List BilledAmount) (usages : List UsedCoupon) : List (ℕ × ℕ) :=
  (((fittingCandidates records usages).insertionSort fun a b => a.le b).foldl
    CouponMatches.next {}).matched

/-- A bill and a usage at their indices fit, so far apart. -/
def Fitting (records : List BilledAmount) (usages : List UsedCoupon) (r u : ℕ) (distance : ℤ) :
    Prop :=
  ∃ record usage, records[r]? = some record ∧ usages[u]? = some usage ∧
    couponFits record usage ∧ couponDistance record usage = distance

/-- What a matching of nearest pairs is. -/
structure StableMatching (records : List BilledAmount) (usages : List UsedCoupon)
    (matched : List (ℕ × ℕ)) : Prop where
  records_nodup : (matched.map Prod.fst).Nodup
  usages_nodup : (matched.map Prod.snd).Nodup
  fits : ∀ r u, (r, u) ∈ matched → ∃ distance, Fitting records usages r u distance
  maximal : ∀ r u distance, Fitting records usages r u distance →
    r ∈ matched.map Prod.fst ∨ u ∈ matched.map Prod.snd
  /-- one of the two has a partner no farther -/
  stable : ∀ r u distance, Fitting records usages r u distance →
    ∃ r' u' distance', (r', u') ∈ matched ∧ (r' = r ∨ u' = u) ∧
      Fitting records usages r' u' distance' ∧ distance' ≤ distance

/-! ## Its properties -/

section Matching

variable {records : List BilledAmount} {usages : List UsedCoupon} {a b c : CouponCandidate}

theorem CouponCandidate.le_iff : a.le b = true ↔ a.distance < b.distance ∨
    a.distance = b.distance ∧ (a.recordIndex < b.recordIndex ∨
      a.recordIndex = b.recordIndex ∧ a.usageIndex ≤ b.usageIndex) := by
  simp [CouponCandidate.le]

instance : Std.Total fun a b : CouponCandidate => a.le b = true where
  total a b := by
    simp only [CouponCandidate.le_iff]
    omega

instance : IsTrans CouponCandidate fun a b => a.le b = true where
  trans a b c := by
    simp only [CouponCandidate.le_iff]
    omega

theorem mem_fittingCandidates : c ∈ fittingCandidates records usages ↔
    Fitting records usages c.recordIndex c.usageIndex c.distance := by
  obtain ⟨distance, r, u⟩ := c
  simp only [fittingCandidates, List.mem_flatMap, Prod.exists, List.mem_zipIdx_iff_getElem?]
  constructor
  · rintro ⟨record, i, hrecord, hc⟩
    split at hc
    · cases hc
    · rename_i usageType htype
      simp only [List.mem_filterMap, Prod.exists, List.mem_zipIdx_iff_getElem?] at hc
      obtain ⟨usage, j, husage, hif⟩ := hc
      split at hif
      · cases hif
      · rename_i hsame
        split at hif
        · cases hif
        · rename_i hcents
          cases hif
          push Not at hsame hcents
          exact ⟨record, usage, hrecord, husage, ⟨hsame ▸ htype, hcents⟩, rfl⟩
  · rintro ⟨record, usage, hrecord, husage, ⟨htype, hcents⟩, rfl⟩
    refine ⟨record, r, hrecord, ?_⟩
    rw [htype]
    simp only [List.mem_filterMap, Prod.exists, List.mem_zipIdx_iff_getElem?]
    exact ⟨usage, u, husage, by simp [hcents]⟩

/-- The maps of the loop, when these candidates have been taken. -/
def CouponMatches.of (taken : List CouponCandidate) : CouponMatches where
  matched := taken.map fun c => (c.recordIndex, c.usageIndex)
  usedUsages := taken.map (·.usageIndex)

theorem isSome_get_of (taken : List CouponCandidate) (r : ℕ) :
    (InsertionMap.get r (CouponMatches.of taken).matched).isSome ↔
      ∃ d ∈ taken, d.recordIndex = r := by
  rw [← Option.ne_none_iff_isSome, ne_eq, InsertionMap.get_eq_none_iff]
  simp [CouponMatches.of]

/-- A step of the loop takes the candidate unless it is blocked. -/
theorem next_of (taken : List CouponCandidate) (c : CouponCandidate) :
    (CouponMatches.of taken).next c =
      .of (GreedyMatching.take (·.recordIndex) (·.usageIndex) taken c) := by
  have hblocked : (InsertionMap.get c.recordIndex (CouponMatches.of taken).matched).isSome ∨
      c.usageIndex ∈ (CouponMatches.of taken).usedUsages ↔
        GreedyMatching.Blocked (·.recordIndex) (·.usageIndex) taken c := by
    rw [isSome_get_of, GreedyMatching.Blocked]
    simp only [CouponMatches.of, List.mem_map]
    exact ⟨fun h => h.elim (fun ⟨d, hd, h⟩ => ⟨d, hd, .inl h⟩) fun ⟨d, hd, h⟩ => ⟨d, hd, .inr h⟩,
      fun ⟨d, hd, h⟩ => h.imp (⟨d, hd, ·⟩) (⟨d, hd, ·⟩)⟩
  unfold CouponMatches.next GreedyMatching.take
  by_cases h : GreedyMatching.Blocked (·.recordIndex) (·.usageIndex) taken c
  · rw [if_pos (hblocked.mpr h), if_pos h]
  · have hnot := mt hblocked.mp h
    have hfresh : ¬(InsertionMap.get c.recordIndex (CouponMatches.of taken).matched).isSome :=
      fun hs => hnot (.inl hs)
    rw [if_neg hnot, if_neg h, InsertionMap.set, if_neg hfresh]
    simp [CouponMatches.of]

theorem foldl_next_of (taken candidates : List CouponCandidate) :
    candidates.foldl CouponMatches.next (.of taken) =
      .of (GreedyMatching.greedy (·.recordIndex) (·.usageIndex) taken candidates) := by
  induction candidates generalizing taken with
  | nil => rfl
  | cons c candidates ih => rw [List.foldl_cons, next_of, ih, GreedyMatching.greedy,
      GreedyMatching.greedy, List.foldl_cons]

/-- The candidates that the matching takes. -/
def takenCandidates (records : List BilledAmount) (usages : List UsedCoupon) :
    List CouponCandidate :=
  GreedyMatching.greedy (·.recordIndex) (·.usageIndex) []
    ((fittingCandidates records usages).insertionSort fun a b => a.le b)

theorem matchCouponUsages_eq (records : List BilledAmount) (usages : List UsedCoupon) :
    matchCouponUsages records usages =
      (takenCandidates records usages).map fun c => (c.recordIndex, c.usageIndex) :=
  congrArg CouponMatches.matched (foldl_next_of [] _)

theorem mem_takenCandidates (h : c ∈ takenCandidates records usages) :
    Fitting records usages c.recordIndex c.usageIndex c.distance := by
  have hsorted := (GreedyMatching.mem_of_mem_greedy h).resolve_left List.not_mem_nil
  exact mem_fittingCandidates.mp ((List.mem_insertionSort _).mp hsorted)

theorem mem_matchCouponUsages {r u : ℕ} : (r, u) ∈ matchCouponUsages records usages ↔
    ∃ c ∈ takenCandidates records usages, c.recordIndex = r ∧ c.usageIndex = u := by
  rw [matchCouponUsages_eq]
  simp

/-- A pair that fits has a partner that is taken, and no farther. -/
theorem exists_taken {r u : ℕ} {distance : ℤ} (h : Fitting records usages r u distance) :
    ∃ d ∈ takenCandidates records usages, (d.recordIndex = r ∨ d.usageIndex = u) ∧
      d.distance ≤ distance := by
  let c : CouponCandidate := ⟨distance, r, u⟩
  have hmem : c ∈ fittingCandidates records usages := mem_fittingCandidates.mpr h
  have hrefl : ∀ e : CouponCandidate, e.le e = true := fun e =>
    CouponCandidate.le_iff.mpr (.inr ⟨rfl, .inr ⟨rfl, le_rfl⟩⟩)
  have htaken : ∃ d ∈ takenCandidates records usages, d.le c = true ∧
      (d.recordIndex = c.recordIndex ∨ d.usageIndex = c.usageIndex) :=
    GreedyMatching.exists_le_of_mem hrefl
      (List.pairwise_insertionSort _ (fittingCandidates records usages))
      ((List.mem_insertionSort _).mpr hmem)
  obtain ⟨d, hd, hle, hends⟩ := htaken
  refine ⟨d, hd, hends, ?_⟩
  rcases CouponCandidate.le_iff.mp hle with hlt | ⟨heq, -⟩
  · exact hlt.le
  · exact heq.le

end Matching

/-- For all bills and usages, whatever their amounts and times. -/
theorem coupon_matching_stable (records : List BilledAmount) (usages : List UsedCoupon) :
    StableMatching records usages (matchCouponUsages records usages) := by
  have hmatching : GreedyMatching.Matching CouponCandidate.recordIndex CouponCandidate.usageIndex
      (takenCandidates records usages) := GreedyMatching.Matching.greedy .nil
  refine ⟨?_, ?_, ?_, ?_, ?_⟩
  · rw [matchCouponUsages_eq, List.map_map]
    exact List.pairwise_map.mpr (hmatching.imp fun h => h.1)
  · rw [matchCouponUsages_eq, List.map_map]
    exact List.pairwise_map.mpr (hmatching.imp fun h => h.2)
  · intro r u h
    obtain ⟨c, hc, rfl, rfl⟩ := mem_matchCouponUsages.mp h
    exact ⟨c.distance, mem_takenCandidates hc⟩
  · intro r u distance h
    obtain ⟨d, hd, hends, -⟩ := exists_taken h
    have hmem := mem_matchCouponUsages.mpr ⟨d, hd, rfl, rfl⟩
    rcases hends with rfl | rfl
    · exact .inl (List.mem_map_of_mem hmem)
    · exact .inr (List.mem_map_of_mem hmem)
  · intro r u distance h
    obtain ⟨d, hd, hends, hle⟩ := exists_taken h
    exact ⟨d.recordIndex, d.usageIndex, d.distance, mem_matchCouponUsages.mpr ⟨d, hd, rfl, rfl⟩,
      hends, mem_takenCandidates hd, hle⟩

/-! ## On rows -/

def BillingRecord.billed (record : BillingRecord) : BilledAmount where
  type := record.type
  amount := record.amount / 100
  createdAt := record.createdAt

def CouponUsage.used (usage : CouponUsage) : UsedCoupon where
  type := usage.type
  originalPrice := usage.originalPrice / 100
  discountAmount := usage.discountAmount / 100
  createdAt := usage.createdAt

/-- On the amounts of the tables nothing is rounded. -/
theorem centsOf_cents (cents : Cents) : centsOf (cents / 100) = cents := by
  rw [centsOf, div_mul_cancel₀ _ (by norm_num), round_intCast]

theorem fittingCandidates_rows (records : List BillingRecord) (usages : List CouponUsage) :
    fittingCandidates (records.map (·.billed)) (usages.map (·.used)) =
      couponCandidates records usages := by
  have hcents : ∀ (record : BillingRecord) (usage : CouponUsage),
      centsOf (usage.used.originalPrice - usage.used.discountAmount) =
        centsOf record.billed.amount ↔
          usage.originalPrice - usage.discountAmount = record.amount := fun record usage => by
    have hpaid : usage.used.originalPrice - usage.used.discountAmount =
        ((usage.originalPrice - usage.discountAmount : Cents) : ℚ) / 100 := by
      simp only [CouponUsage.used]
      push_cast
      ring
    rw [hpaid, centsOf_cents, BillingRecord.billed, centsOf_cents]
  unfold fittingCandidates couponCandidates
  rw [List.zipIdx_map, List.zipIdx_map, List.flatMap_map]
  refine List.flatMap_congr fun ⟨record, recordIndex⟩ _ => ?_
  show (match usageTypeOf record.type with
    | none => []
    | some usageType => _) = match usageTypeOf record.type with
    | none => []
    | some usageType => _
  cases usageTypeOf record.type with
  | none => rfl
  | some usageType =>
      dsimp only
      rw [List.filterMap_map]
      refine List.filterMap_congr fun ⟨usage, usageIndex⟩ _ => ?_
      show (if usage.type ≠ usageType then none
        else if centsOf (usage.used.originalPrice - usage.used.discountAmount) ≠
            centsOf record.billed.amount then none
        else some _) = _
      by_cases htype : usage.type = usageType
      · by_cases hamount : usage.originalPrice - usage.discountAmount = record.amount
        · rw [if_neg (not_not.mpr htype), if_neg (not_not.mpr ((hcents record usage).mpr hamount)),
            if_pos ⟨htype, hamount⟩]
          rfl
        · rw [if_neg (not_not.mpr htype), if_pos (mt (hcents record usage).mp hamount),
            if_neg fun h => hamount h.2]
      · rw [if_pos htype, if_neg fun h => htype h.1]

end Incudal
