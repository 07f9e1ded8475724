/-
# `Lottery` — which prize a draw wins

The prizes of a lottery lay their probabilities end to end, and a draw is a
point of the line.  The loop of `weightedRandomSelect` is meant to keep these
intervals when a prize is sold out: the draw then falls back to the prize of
type `nothing`.  Without such a prize the loop goes on, and the interval of a
prize that is sold out goes to the next one in stock; past the last interval it
throws.  `weightedRandomSelect_keeps_iff` says for which lists and draws the
intervals are kept.
-/
import Incudal.Lib.Segments
import Mathlib

namespace Incudal

/-- `LotteryPrizeType`. -/
inductive LotteryPrizeType
  | nothing | points | balance | badge | ofInstance | cpu | memory | disk | traffic
deriving DecidableEq, Repr

/-- A row of `lottery_prizes`; the routes take only probabilities from 0 to 100. -/
structure LotteryPrize where
  id : ℕ
  lotteryId : ℕ := 1
  name : String := ""
  type : LotteryPrizeType
  value : ℕ := 0
  probability : ℚ≥0
  remainQuantity : Option ℤ := none
  instanceDesc : Option String := none
deriving DecidableEq

/-- In stock, or without a limit. -/
def LotteryPrize.inStock (prize : LotteryPrize) : Bool :=
  prize.remainQuantity.all fun remainQuantity => decide (0 < remainQuantity)

def lotteryConfigError : String :=
  "LOTTERY_CONFIG_ERROR: 奖品概率总和不足100%且缺少\"谢谢参与\"奖品，请添加一个type为nothing的奖品来补足剩余概率"

/-- The loop of `weightedRandomSelect`. -/
def selectFrom (nothingPrize : Option LotteryPrize) (random : ℚ≥0) :
    ℚ≥0 → List LotteryPrize → Except String LotteryPrize
  | _, [] =>
      match nothingPrize with
      | some nothingPrize => .ok nothingPrize
      | none => .error lotteryConfigError
  | cumulative, prize :: prizes =>
      if random < cumulative + prize.probability then
        if prize.inStock then .ok prize
        else
          match nothingPrize with
          | some nothingPrize => .ok nothingPrize
          -- without a prize of type `nothing` the next ones are checked
          | none => selectFrom nothingPrize random (cumulative + prize.probability) prizes
      else selectFrom nothingPrize random (cumulative + prize.probability) prizes

/-- `prizes.find(p => p.type === 'nothing')`. -/
def nothingPrize (prizes : List LotteryPrize) : Option LotteryPrize :=
  prizes.find? fun prize => decide (prize.type = .nothing)

/-- `weightedRandomSelect`, with the draw `random` in percent. -/
def weightedRandomSelect (prizes : List LotteryPrize) (random : ℚ≥0) :
    Except String LotteryPrize :=
  if !prizes.any (·.inStock) then .error "NO_AVAILABLE_PRIZES"
  else selectFrom (nothingPrize prizes) random 0 prizes

/-! ## The loop -/

section Select

variable {random cumulative : ℚ≥0} {prizes : List LotteryPrize} {p q : LotteryPrize}
  {fallback : Option LotteryPrize}

/-- The draw lies in the interval of the prize. -/
def LotteryPrize.Hit (prizes : List LotteryPrize) (random : ℚ≥0) (p : LotteryPrize) : Prop :=
  Segments.Falls LotteryPrize.probability 0 random prizes p

/-- A prize in stock wins in its own interval. -/
theorem selectFrom_of_falls (hbase : cumulative ≤ random)
    (h : Segments.Falls LotteryPrize.probability cumulative random prizes p)
    (hstock : p.inStock = true) : selectFrom fallback random cumulative prizes = .ok p := by
  induction prizes generalizing cumulative with
  | nil => exact absurd h Segments.not_falls_nil
  | cons prize prizes ih =>
    rw [selectFrom.eq_def]
    rcases lt_or_ge random (cumulative + prize.probability) with hlt | hle
    · obtain rfl := (Segments.falls_cons_of_lt hbase hlt).mp h
      dsimp only
      rw [if_pos hlt, if_pos hstock]
    · dsimp only
      rw [if_neg (not_lt.mpr hle)]
      exact ih hle ((Segments.falls_cons_of_le hle).mp h)

/-- Elsewhere the fallback is taken, if there is one. -/
theorem selectFrom_fallback (hbase : cumulative ≤ random)
    (hnone : ∀ p, Segments.Falls LotteryPrize.probability cumulative random prizes p →
      p.inStock = false) :
    selectFrom (some q) random cumulative prizes = .ok q := by
  induction prizes generalizing cumulative with
  | nil => rfl
  | cons prize prizes ih =>
    rw [selectFrom.eq_def]
    rcases lt_or_ge random (cumulative + prize.probability) with hlt | hle
    · have hsold := hnone prize ((Segments.falls_cons_of_lt hbase hlt).mpr rfl)
      dsimp only
      rw [if_pos hlt, hsold]
      rfl
    · dsimp only
      rw [if_neg (not_lt.mpr hle)]
      exact ih hle fun p hp => hnone p ((Segments.falls_cons_of_le hle).mpr hp)

/-- What is selected is a prize in stock, or the fallback. -/
theorem selectFrom_ok (h : selectFrom fallback random cumulative prizes = .ok p) :
    (p ∈ prizes ∧ p.inStock = true) ∨ fallback = some p := by
  induction prizes generalizing cumulative with
  | nil =>
    unfold selectFrom at h
    split at h
    · obtain rfl := Except.ok.inj h
      exact .inr rfl
    · cases h
  | cons prize prizes ih =>
    have hrest : ∀ c, selectFrom fallback random c prizes = .ok p →
        (p ∈ prize :: prizes ∧ p.inStock = true) ∨ fallback = some p :=
      fun c hc => (ih hc).imp_left fun hp => ⟨List.mem_cons_of_mem _ hp.1, hp.2⟩
    rw [selectFrom.eq_def] at h
    dsimp only at h
    split at h
    · split at h
      · rename_i hstock
        obtain rfl := Except.ok.inj h
        exact .inl ⟨List.mem_cons_self, hstock⟩
      · split at h
        · obtain rfl := Except.ok.inj h
          exact .inr rfl
        · exact hrest _ h
    · exact hrest _ h

/-! ## The intervals -/

/-- A prize in stock wins just in its own interval, and everywhere else a prize of type `nothing`
is the outcome. -/
structure KeepsIntervals (prizes : List LotteryPrize) (random : ℚ≥0) : Prop where
  won : ∀ p, LotteryPrize.Hit prizes random p → p.inStock = true →
    weightedRandomSelect prizes random = .ok p
  nothing : (∀ p, LotteryPrize.Hit prizes random p → p.inStock = false) →
    ∃ p ∈ prizes, p.type = .nothing ∧ weightedRandomSelect prizes random = .ok p
  only : ∀ p, weightedRandomSelect prizes random = .ok p → p.type ≠ .nothing →
    LotteryPrize.Hit prizes random p ∧ p.inStock = true

theorem weightedRandomSelect_of_hit (h : LotteryPrize.Hit prizes random p)
    (hstock : p.inStock = true) : weightedRandomSelect prizes random = .ok p := by
  have hany : prizes.any (·.inStock) = true := List.any_eq_true.mpr ⟨p, h.mem, hstock⟩
  rw [weightedRandomSelect, hany]
  exact selectFrom_of_falls (zero_le) h hstock

theorem mem_of_nothingPrize (h : nothingPrize prizes = some p) : p ∈ prizes ∧ p.type = .nothing := by
  have hfound := List.find?_some h
  exact ⟨List.mem_of_find?_eq_some h, of_decide_eq_true hfound⟩

theorem weightedRandomSelect_fallback (hany : prizes.any (·.inStock) = true)
    (hnothing : ∃ p ∈ prizes, p.type = .nothing)
    (hnone : ∀ p, LotteryPrize.Hit prizes random p → p.inStock = false) :
    ∃ p ∈ prizes, p.type = .nothing ∧ weightedRandomSelect prizes random = .ok p := by
  obtain ⟨p, hp⟩ : ∃ p, nothingPrize prizes = some p := by
    obtain ⟨p, hmem, htype⟩ := hnothing
    exact Option.isSome_iff_exists.mp (List.find?_isSome.mpr ⟨p, hmem, decide_eq_true htype⟩)
  obtain ⟨hmem, htype⟩ := mem_of_nothingPrize hp
  refine ⟨p, hmem, htype, ?_⟩
  rw [weightedRandomSelect, hany, hp]
  exact selectFrom_fallback (zero_le) hnone

theorem mem_of_weightedRandomSelect (h : weightedRandomSelect prizes random = .ok p) :
    p ∈ prizes := by
  unfold weightedRandomSelect at h
  split at h
  · cases h
  · exact (selectFrom_ok h).elim And.left fun hp => List.mem_of_find?_eq_some hp

/-- Some prize is in stock, and there is a prize of type `nothing` or the draw hits a prize in
stock. -/
structure Covered (prizes : List LotteryPrize) (random : ℚ≥0) : Prop where
  stocked : ∃ p ∈ prizes, p.inStock = true
  outcome : (∃ p ∈ prizes, p.type = .nothing) ∨
    ∃ p, LotteryPrize.Hit prizes random p ∧ p.inStock = true

theorem keepsIntervals_iff : KeepsIntervals prizes random ↔ Covered prizes random := by
  constructor
  · intro h
    by_cases hhit : ∃ p, LotteryPrize.Hit prizes random p ∧ p.inStock = true
    · obtain ⟨p, hp, hstock⟩ := hhit
      exact ⟨⟨p, hp.mem, hstock⟩, .inr ⟨p, hp, hstock⟩⟩
    · have hnone : ∀ p, LotteryPrize.Hit prizes random p → p.inStock = false :=
        fun p hp => Bool.eq_false_iff.mpr fun hstock => hhit ⟨p, hp, hstock⟩
      obtain ⟨p, hmem, htype, hselect⟩ := h.nothing hnone
      refine ⟨?_, .inl ⟨p, hmem, htype⟩⟩
      unfold weightedRandomSelect at hselect
      split at hselect
      · cases hselect
      · rename_i hany
        exact List.any_eq_true.mp (by simpa using hany)
  · rintro ⟨hstocked, houtcome⟩
    have hany : prizes.any (·.inStock) = true := List.any_eq_true.mpr hstocked
    refine ⟨fun p hp hstock => weightedRandomSelect_of_hit hp hstock, fun hnone => ?_,
      fun p hselect htype => ?_⟩
    · refine weightedRandomSelect_fallback hany (houtcome.resolve_right ?_) hnone
      rintro ⟨p, hp, hstock⟩
      rw [hnone p hp] at hstock
      cases hstock
    · by_cases hhit : ∃ q, LotteryPrize.Hit prizes random q ∧ q.inStock = true
      · obtain ⟨q, hq, hstock⟩ := hhit
        obtain rfl := Except.ok.inj ((weightedRandomSelect_of_hit hq hstock).symm.trans hselect)
        exact ⟨hq, hstock⟩
      · have hnone : ∀ p, LotteryPrize.Hit prizes random p → p.inStock = false :=
          fun p hp => Bool.eq_false_iff.mpr fun hstock => hhit ⟨p, hp, hstock⟩
        obtain ⟨q, -, hq, hnothing⟩ :=
          weightedRandomSelect_fallback hany (houtcome.resolve_right hhit) hnone
        obtain rfl := Except.ok.inj (hnothing.symm.trans hselect)
        exact absurd hq htype

/-! ## Selling out -/

def LotteryPrize.sellOut (prize : LotteryPrize) : LotteryPrize :=
  { prize with remainQuantity := some 0 }

/-- The `i`th prize is sold out. -/
def soldOut (i : ℕ) (prizes : List LotteryPrize) : List LotteryPrize :=
  prizes.modify i LotteryPrize.sellOut

/-- A prize that is still in stock has kept its interval. -/
theorem falls_of_soldOut (hbase : cumulative ≤ random) {i : ℕ}
    (h : Segments.Falls LotteryPrize.probability cumulative random (soldOut i prizes) p)
    (hstock : p.inStock = true) :
    Segments.Falls LotteryPrize.probability cumulative random prizes p := by
  induction prizes generalizing cumulative i with
  | nil => exact absurd h (by cases i <;> exact Segments.not_falls_nil)
  | cons prize prizes ih =>
    cases i with
    | zero =>
      have h' : Segments.Falls LotteryPrize.probability cumulative random
          (prize.sellOut :: prizes) p := h
      rcases lt_or_ge random (cumulative + prize.probability) with hlt | hle
      · obtain rfl : p = prize.sellOut :=
          (Segments.falls_cons_of_lt (y := prize.sellOut) hbase hlt).mp h'
        cases hstock
      · exact (Segments.falls_cons_of_le hle).mpr
          ((Segments.falls_cons_of_le (y := prize.sellOut) hle).mp h')
    | succ i =>
      rcases lt_or_ge random (cumulative + prize.probability) with hlt | hle
      · exact (Segments.falls_cons_of_lt hbase hlt).mpr ((Segments.falls_cons_of_lt hbase hlt).mp h)
      · exact (Segments.falls_cons_of_le hle).mpr (ih hle ((Segments.falls_cons_of_le hle).mp h))

theorem exists_nothing_soldOut {i : ℕ} (h : ∃ p ∈ prizes, p.type = .nothing) :
    ∃ p ∈ soldOut i prizes, p.type = .nothing := by
  induction prizes generalizing i with
  | nil =>
    obtain ⟨p, hp, -⟩ := h
    cases hp
  | cons prize prizes ih =>
    obtain ⟨p, hp, htype⟩ := h
    cases i with
    | zero =>
      rcases List.mem_cons.mp hp with rfl | hp
      · exact ⟨p.sellOut, List.mem_cons_self, htype⟩
      · exact ⟨p, List.mem_cons_of_mem _ hp, htype⟩
    | succ i =>
      rcases List.mem_cons.mp hp with rfl | hp
      · exact ⟨p, List.mem_cons_self, htype⟩
      · obtain ⟨q, hq, hqtype⟩ := ih (i := i) ⟨p, hp, htype⟩
        exact ⟨q, List.mem_cons_of_mem _ hq, hqtype⟩

/-- The draws that win a prize after another one is sold out have won it before. -/
theorem soldOut_wins {i : ℕ} (hnothing : ∃ p ∈ prizes, p.type = .nothing)
    (h : weightedRandomSelect (soldOut i prizes) random = .ok p) (htype : p.type ≠ .nothing) :
    weightedRandomSelect prizes random = .ok p := by
  have hstocked : ∃ p ∈ soldOut i prizes, p.inStock = true := by
    unfold weightedRandomSelect at h
    split at h
    · cases h
    · rename_i hany
      exact List.any_eq_true.mp (by simpa using hany)
  have hkeeps : KeepsIntervals (soldOut i prizes) random :=
    keepsIntervals_iff.mpr ⟨hstocked, .inl (exists_nothing_soldOut hnothing)⟩
  obtain ⟨hhit, hstock⟩ := hkeeps.only p h htype
  exact weightedRandomSelect_of_hit (falls_of_soldOut zero_le hhit hstock) hstock

/-- What is selected is in stock, or the fallback. -/
theorem inStock_of_weightedRandomSelect (h : weightedRandomSelect prizes random = .ok p) :
    p.inStock = true ∨ nothingPrize prizes = some p := by
  unfold weightedRandomSelect at h
  split at h
  · cases h
  · exact (selectFrom_ok h).imp_left And.right

end Select

/-- Two prizes with half of the draws each; the first one is sold out. -/
def halfSoldOut : List LotteryPrize :=
  [{ id := 1, type := .balance, probability := 50, remainQuantity := some 0 },
   { id := 2, type := .ofInstance, probability := 50, remainQuantity := some 1 }]

end Incudal
