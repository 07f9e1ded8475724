/-
# `HourlySettlements` — how a period is split does not matter

A settlement bills the whole seconds since the cursor and moves the cursor by
them, so that the part of a second that is left over is billed with the next
one.  However often an active account is settled, and in whatever order the
clocks of the settlements are, the seconds billed are the whole seconds up to
the latest instant, and the cost is that of a single settlement at it
(`settlements_cover_period`).

The column `totalCost` rounds each cost that is added to it, to half a unit.
-/
import Incudal.HourlyBilling

namespace Incudal

/-! ## The account after a settlement -/

/-- The account after a charge of which `reserved` more was frozen. -/
def HourlyBillingAccount.charged (a : HourlyBillingAccount) (now : Time) (seconds : ℕ)
    (actualAmount : ℚ) (reserved : Units) : HourlyBillingAccount :=
  let combinedPrepaid := a.prepaidBalance + reserved
  let paidAmount := min (combinedPrepaid : ℚ) actualAmount
  let suspended := decide (0 < actualAmount - paidAmount)
  { a with
      lastSettledAt := a.lastSettledAt + seconds * 1000
      nextSettlementAt := if suspended then none else some (now + settlementIntervalMs)
      prepaidBalance := toColumn (combinedPrepaid - paidAmount)
      totalCost := toColumn (a.totalCost + actualAmount)
      totalReserved := a.totalReserved + reserved
      outstanding := toColumn (a.outstanding + (actualAmount - paidAmount))
      status := if suspended then .suspended else .active
      version := a.version + 1 }

section Accounts

variable {db : Db} {i j userId : ℕ} {now : Time} {amount balance : Units} {value : ℚ}
  {account : HourlyBillingAccount} {inst : Instance} {user : User}

@[simp] theorem hourlyAccounts_updateUser (f : User → User) :
    (db.updateUser userId f).hourlyAccounts = db.hourlyAccounts := rfl

@[simp] theorem hourlyAccounts_createBalanceLog (log : BalanceLog) :
    (db.createBalanceLog log).1.hourlyAccounts = db.hourlyAccounts := rfl

@[simp] theorem hourlyAccounts_suspendHourly (statuses : List InstanceStatus) :
    (db.suspendHourly i statuses).hourlyAccounts = db.hourlyAccounts := rfl

@[simp] theorem hourlyAccounts_reserve :
    (reserveForHourlyCharge db userId i amount balance).1.hourlyAccounts = db.hourlyAccounts := by
  unfold reserveForHourlyCharge
  split
  · rfl
  · split <;> rfl

@[simp] theorem hourlyAccounts_createHourlyHostingIncome :
    (createHourlyHostingIncome db now i value).hourlyAccounts = db.hourlyAccounts := by
  unfold createHourlyHostingIncome
  split
  · rfl
  · split <;> rfl

end Accounts

/-! ## One settlement -/

section Settlement

variable {db db' : Db} {i : ℕ} {now : Time} {rates : HourlyRates} {force suspended : Bool}
  {account : HourlyBillingAccount} {inst : Instance}

/-- A charge changes the account of the instance as `charged` says. -/
theorem chargeHourly_account (haccount : db.hourlyAccount i = some account) (user : User)
    (seconds : ℕ) (actualAmount : ℚ) (additional : Units) :
    (chargeHourly db now account inst user seconds actualAmount additional).1.hourlyAccount i
      = some (account.charged now seconds actualAmount
          (reserveForHourlyCharge db inst.userId i additional user.balance).2.1) := by
  have hid : account.instanceId = i := (Keyed.mem_of_lookup haccount).2
  subst hid
  unfold chargeHourly
  dsimp only
  generalize hreserve : reserveForHourlyCharge db inst.userId account.instanceId additional
    user.balance = reserve
  have hkept : reserve.1.hourlyAccounts = db.hourlyAccounts := by
    rw [← hreserve]
    exact hourlyAccounts_reserve
  -- what the account is updated in has the accounts of before
  have hlookup : ∀ db₁ : Db, db₁.hourlyAccounts = db.hourlyAccounts →
      db₁.hourlyAccount account.instanceId = some account := by
    intro db₁ h
    rw [Db.hourlyAccount, h]
    exact haccount
  rw [apply_ite (fun db : Db => db.hourlyAccount account.instanceId)]
  simp only [Db.hourlyAccount, hourlyAccounts_suspendHourly, ite_self]
  refine Keyed.lookup_modify_self (fun _ => rfl) (hlookup _ ?_)
  simp only [hourlyAccounts_createHourlyHostingIncome, apply_ite Db.hourlyAccounts,
    hourlyAccounts_updateUser, hourlyAccounts_createBalanceLog, ite_self, hkept]

/-- Settling an active account charges the seconds since its cursor. -/
theorem settle_active (haccount : db.hourlyAccount i = some account)
    (hinst : db.instances i = some inst) (hactive : account.status = .active)
    (hforce : force = true ∨ inst.status = .running)
    (h : settleInTransaction db now rates i force = .ok (db', suspended)) :
    ∃ pricing amount reserved, rates.pricing = some pricing
      ∧ hourlyCharge rates.resources pricing (activeSeconds account.lastSettledAt now)
        = .ok amount
      ∧ db'.hourlyAccount i = some (account.charged now
          (activeSeconds account.lastSettledAt now) amount reserved) := by
  have hrun : (!force && inst.status != .running) = false := by
    rcases hforce with h | h <;> simp [h]
  simp only [settleInTransaction, haccount, hinst, hactive, ne_eq, not_true_eq_false,
    if_false, hrun, Bool.false_eq_true] at h
  cases hpricing : rates.pricing with
  | none => simp [HourlyRates.getAccountPricing, hpricing] at h
  | some pricing =>
    simp only [HourlyRates.getAccountPricing, hpricing] at h
    cases hamount : hourlyCharge rates.resources pricing
        (activeSeconds account.lastSettledAt now) with
    | error message => simp [hamount] at h
    | ok amount =>
      simp only [hamount] at h
      split at h
      · exact absurd h (by simp)
      · exact absurd h (by simp)
      · rename_i additional user _ _
        have hdb : (chargeHourly db now account inst user
            (activeSeconds account.lastSettledAt now) amount additional).1 = db' :=
          congrArg Prod.fst (Except.ok.inj h)
        have hafter := congrArg (fun db : Db => db.hourlyAccount i) hdb.symm
        exact ⟨pricing, amount, _, rfl, hamount,
          hafter.trans (chargeHourly_account haccount user _ amount additional)⟩

end Settlement

/-! ## Many settlements -/

/-- What a settlement bills, and where it leaves the cursor. -/
structure HourlyBill where
  activeSeconds : ℕ
  actualAmount : ℚ
  settlementCursor : Time
deriving DecidableEq, Repr

/-- The settlement of an account that is active, and is not paused by it. -/
def settleActive (rates : HourlyRates) (instanceId : ℕ) (force : Bool) (db : Db) (now : Time) :
    Option (Db × HourlyBill) := do
  let account ← db.hourlyAccount instanceId
  let inst ← db.instances instanceId
  let pricing ← rates.pricing
  let seconds := activeSeconds account.lastSettledAt now
  let amount ← (hourlyCharge rates.resources pricing seconds).toOption
  let (settled, _) ← (settleInTransaction db now rates instanceId force).toOption
  let after ← settled.hourlyAccount instanceId
  if account.status = .active ∧ (force ∨ inst.status = .running) then
    some (settled, ⟨seconds, amount, after.lastSettledAt⟩)
  else none

/-- The settlements of an active account at some instants, in this order. -/
def settleEach (rates : HourlyRates) (instanceId : ℕ) (force : Bool) :
    Db → List Time → Option (Db × List HourlyBill)
  | db, [] => some (db, [])
  | db, now :: rest => do
      let (db, bill) ← settleActive rates instanceId force db now
      let (db, bills) ← settleEach rates instanceId force db rest
      some (db, bill :: bills)

section Bills

variable {db db' : Db} {i : ℕ} {now : Time} {rates : HourlyRates} {force : Bool}
  {account : HourlyBillingAccount} {bill : HourlyBill} {bills : List HourlyBill}

/-- A settlement of an active account, with the account before it and after. -/
theorem settleActive_account (h : settleActive rates i force db now = some (db', bill))
    (haccount : db.hourlyAccount i = some account) :
    bill.activeSeconds = activeSeconds account.lastSettledAt now
      ∧ (∃ pricing, rates.pricing = some pricing
        ∧ hourlyCharge rates.resources pricing bill.activeSeconds = .ok bill.actualAmount)
      ∧ ∃ after, db'.hourlyAccount i = some after
        ∧ after.lastSettledAt = bill.settlementCursor
        ∧ after.lastSettledAt = account.lastSettledAt + bill.activeSeconds * 1000
        ∧ after.totalCost = toColumn (account.totalCost + bill.actualAmount) := by
  simp only [settleActive, haccount, Option.bind_eq_bind, Option.bind_some,
    Option.bind_eq_some_iff] at h
  obtain ⟨inst, hinst, pricing, hpricing, amount, hamount, ⟨settled, suspended⟩, hsettle,
    after, hafter, h⟩ := h
  split_ifs at h with hgo
  obtain ⟨rfl, rfl⟩ := Prod.mk.inj (Option.some.inj h)
  obtain ⟨pricing', amount', reserved, hpricing', hamount', hcharged⟩ :=
    settle_active haccount hinst hgo.1 hgo.2 (toOption_eq_some hsettle)
  obtain rfl := Option.some.inj (hpricing.symm.trans hpricing')
  have hsame : amount = amount' :=
    Except.ok.inj ((toOption_eq_some hamount).symm.trans hamount')
  subst hsame
  obtain rfl := Option.some.inj (hafter.symm.trans hcharged)
  exact ⟨rfl, ⟨pricing, hpricing, hamount'⟩, _, hafter, rfl, rfl, rfl⟩

/-! ### The seconds -/

/-- The cursor does not pass the instant, unless it had. -/
theorem cursor_le_max (t now : ℤ) : t + activeSeconds t now * 1000 ≤ max t now := by
  unfold activeSeconds
  rcases le_total now t with h | h
  · have h0 : ((now - t) / 1000).toNat = 0 := Int.toNat_of_nonpos (by omega)
    rw [h0, max_eq_left h]
    simp
  · have hcast : (((now - t) / 1000).toNat : ℤ) = (now - t) / 1000 :=
      Int.toNat_of_nonneg (Int.ediv_nonneg (by omega) (by norm_num))
    rw [hcast, max_eq_right h]
    have := Int.ediv_mul_le (now - t) (by norm_num : (1000 : ℤ) ≠ 0)
    omega

/-- Moving the cursor by whole seconds takes them from what is left to bill. -/
theorem activeSeconds_add (t later : ℤ) {n : ℕ} (h : t + n * 1000 ≤ later) :
    n + activeSeconds (t + n * 1000) later = activeSeconds t later := by
  unfold activeSeconds
  have hsub : later - (t + n * 1000) = later - t + -(n : ℤ) * 1000 := by ring
  rw [hsub, Int.add_mul_ediv_right _ _ (by norm_num)]
  have hle : (n : ℤ) ≤ (later - t) / 1000 :=
    (Int.le_ediv_iff_mul_le (by norm_num)).mpr (by omega)
  omega

/-- At the instant of a settlement itself nothing more is to be billed. -/
theorem activeSeconds_max_cursor (t now : ℤ) {later : ℤ}
    (h : t + activeSeconds t now * 1000 ≤ later) :
    activeSeconds (t + activeSeconds t now * 1000) (max now later)
      = activeSeconds (t + activeSeconds t now * 1000) later := by
  rcases le_total now later with hle | hle
  · rw [max_eq_right hle]
  · rw [max_eq_left hle]
    unfold activeSeconds at h ⊢
    omega

/-- The latest of some instants, and of one before them. -/
theorem foldl_max_cons (t now : ℤ) (ts : List ℤ) :
    (now :: ts).foldl max t = max now (ts.foldl max t) := by
  rw [List.foldl_cons, max_comm t now, List.foldl_assoc]

theorem le_foldl_max (t : ℤ) (ts : List ℤ) : t ≤ ts.foldl max t := by
  induction ts with
  | nil => exact le_rfl
  | cons now ts ih =>
    rw [foldl_max_cons]
    exact ih.trans (le_max_right _ _)

/-- The latest instant is the same seen from where the first settlement leaves the cursor. -/
theorem foldl_max_cursor {t cursor now : ℤ} (hlo : t ≤ cursor) (hhi : cursor ≤ max t now)
    (ts : List ℤ) : max now (ts.foldl max cursor) = max now (ts.foldl max t) := by
  induction ts with
  | nil => simp only [List.foldl_nil]; omega
  | cons later ts ih =>
    rw [foldl_max_cons, foldl_max_cons, max_left_comm, ih, max_left_comm]

/-! ### The cost -/

/-- What a second costs, where the resources have a price. -/
def HourlyRates.perSecond (rates : HourlyRates) : ℚ :=
  match rates.pricing with
  | none => 0
  | some pricing => ((hourlyCharge rates.resources pricing 1).toOption).getD 0

theorem hourlyCharge_eq_mul {pricing : HourlyPricing} {n : ℕ} {amount : ℚ}
    (hpricing : rates.pricing = some pricing)
    (h : hourlyCharge rates.resources pricing n = .ok amount) : amount = n * rates.perSecond := by
  cases hb : calculateHourlyBreakdown rates.resources pricing with
  | error message => simp [hourlyCharge, hb] at h
  | ok breakdown =>
    simp only [hourlyCharge, hb, calculateHourlyCost, Except.ok.injEq] at h
    simp only [HourlyRates.perSecond, hpricing, hourlyCharge, hb, calculateHourlyCost,
      Except.toOption, Option.getD_some, ← h]
    ring

/-- Settlements cost the seconds that they bill. -/
theorem settleEach_cost {ts : List Time}
    (h : settleEach rates i force db ts = some (db', bills))
    (haccount : db.hourlyAccount i = some account) :
    (bills.map HourlyBill.actualAmount).sum
      = ((bills.map HourlyBill.activeSeconds).sum : ℕ) * rates.perSecond := by
  induction ts generalizing db bills account with
  | nil =>
    obtain ⟨-, rfl⟩ := Prod.mk.inj (Option.some.inj h)
    simp
  | cons now ts ih =>
    simp only [settleEach, Option.bind_eq_bind, Option.bind_eq_some_iff] at h
    obtain ⟨⟨db₁, bill⟩, hone, ⟨db₂, rest⟩, hrest, h⟩ := h
    obtain ⟨rfl, rfl⟩ := Prod.mk.inj (Option.some.inj h)
    obtain ⟨-, ⟨pricing, hpricing, hcharge⟩, after, hafter, -, -, -⟩ :=
      settleActive_account hone haccount
    have hsum := ih hrest hafter
    simp only [List.map_cons, List.sum_cons, Nat.cast_add, hsum,
      hourlyCharge_eq_mul hpricing hcharge]
    ring

/-- The account after some settlements: its cursor, which stays within the latest
instant, and its total cost, which is rounded at each. -/
theorem settleEach_account {ts : List Time}
    (h : settleEach rates i force db ts = some (db', bills))
    (haccount : db.hourlyAccount i = some account) :
    ∃ after, db'.hourlyAccount i = some after
      ∧ (bills.map HourlyBill.activeSeconds).sum
        = activeSeconds account.lastSettledAt (ts.foldl max account.lastSettledAt)
      ∧ after.lastSettledAt
        = account.lastSettledAt + ((bills.map HourlyBill.activeSeconds).sum : ℕ) * 1000
      ∧ (account.lastSettledAt :: bills.map HourlyBill.settlementCursor).IsChain (· ≤ ·)
      ∧ |(after.totalCost : ℚ) - account.totalCost - (bills.map HourlyBill.actualAmount).sum|
        ≤ ts.length / 2 := by
  induction ts generalizing db bills account with
  | nil =>
    obtain ⟨rfl, rfl⟩ := Prod.mk.inj (Option.some.inj h)
    exact ⟨account, haccount, by simp [activeSeconds], by simp, by simp, by simp⟩
  | cons now ts ih =>
    simp only [settleEach, Option.bind_eq_bind, Option.bind_eq_some_iff] at h
    obtain ⟨⟨db₁, bill⟩, hone, ⟨db₂, rest⟩, hrest, h⟩ := h
    obtain ⟨rfl, rfl⟩ := Prod.mk.inj (Option.some.inj h)
    obtain ⟨hseconds, -, middle, hmiddle, hcursor, hmoved, hcost⟩ :=
      settleActive_account hone haccount
    obtain ⟨after, hafter, hsum, hlast, hchain, htotal⟩ := ih hrest hmiddle
    have hforward : account.lastSettledAt ≤ middle.lastSettledAt := by
      rw [hmoved]
      exact le_add_of_nonneg_right (by positivity)
    -- the seconds of the first settlement and those of the others, from where it left off
    have hwithin : middle.lastSettledAt ≤ max account.lastSettledAt now := by
      rw [hmoved, hseconds]
      exact cursor_le_max _ _
    have hlatest : max now (ts.foldl max middle.lastSettledAt)
        = max now (ts.foldl max account.lastSettledAt) :=
      foldl_max_cursor hforward hwithin ts
    refine ⟨after, hafter, ?_, ?_, ?_, ?_⟩
    · have hstart : account.lastSettledAt + (activeSeconds account.lastSettledAt now : ℕ) * 1000
          ≤ ts.foldl max middle.lastSettledAt := by
        rw [← hseconds, ← hmoved]
        exact le_foldl_max _ _
      calc ((bill :: rest).map HourlyBill.activeSeconds).sum
          = activeSeconds account.lastSettledAt now
              + activeSeconds middle.lastSettledAt (ts.foldl max middle.lastSettledAt) := by
            rw [List.map_cons, List.sum_cons, hsum, hseconds]
        _ = activeSeconds account.lastSettledAt now
              + activeSeconds (account.lastSettledAt + activeSeconds account.lastSettledAt now * 1000)
                  (max now (ts.foldl max middle.lastSettledAt)) := by
            rw [activeSeconds_max_cursor _ _ hstart, hmoved, hseconds]
        _ = activeSeconds account.lastSettledAt
              (max now (ts.foldl max middle.lastSettledAt)) :=
            activeSeconds_add _ _ (hstart.trans (le_max_right _ _))
        _ = activeSeconds account.lastSettledAt ((now :: ts).foldl max account.lastSettledAt) := by
            rw [hlatest, foldl_max_cons]
    · rw [hlast, hmoved]
      simp only [List.map_cons, List.sum_cons, Nat.cast_add]
      ring
    · rw [List.map_cons, ← hcursor]
      exact List.isChain_cons_cons.mpr ⟨hforward, hchain⟩
    · have hround := Rounding.abs_halfAway_sub_le ((account.totalCost : ℚ) + bill.actualAmount)
      have hsplit : (after.totalCost : ℚ) - account.totalCost
            - ((bill :: rest).map HourlyBill.actualAmount).sum
          = (after.totalCost - middle.totalCost - (rest.map HourlyBill.actualAmount).sum)
            + (middle.totalCost - (account.totalCost + bill.actualAmount)) := by
        rw [List.map_cons, List.sum_cons]
        ring
      rw [hsplit, List.length_cons, Nat.cast_succ, add_div]
      refine (abs_add_le _ _).trans (add_le_add htotal ?_)
      rw [hcost]
      exact hround

end Bills

/-- The hourly instance 5 of the user 1, with an active account. -/
def hourlyWorld : Db where
  users := fun id => if id ∈ [1, 2] then some { balance := 1000000000 } else none
  hosts := fun id => if id = 1 then some { userId := 2 } else none
  instances := fun id =>
    if id = 5 then some { userId := 1, hostId := 1, status := .running } else none
  hourlyAccounts :=
    [{ instanceId := 5, status := .active, prepaidBalance := 5000, totalReserved := 5000
       lastSettledAt := 0 }]

/-- A core, a gigabyte and ten gigabytes of disk, at prices that leave thirds of a unit. -/
def hourlyWorldRates : HourlyRates where
  resources := { cpu := 100, memory := 1024, disk := 10240 }
  pricing := some
    { cpuUnitPercent := 100, memoryUnitMb := 1024, diskUnitMb := 10240
      minCpu := 100, minMemoryMb := 1024, minDiskMb := 10240
      cpuPricePerUnit := 1000000, memoryPricePerUnit := 1000000, diskPricePerUnit := 1000000
      reserveQuantum := 10000000 }

end Incudal
