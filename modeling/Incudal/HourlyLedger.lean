/-
# `HourlyLedger` — what is frozen, what is owed and what is earned by the hour

The prepaid balances of a user's accounts are the user's frozen balance, and
what an account has frozen is still prepaid, was released, or has paid for its
cost.  Every operation moves an amount through several columns, each of which
rounds to its eight decimals on its own.

That goes wrong in one place: where a charge that is paid in full ends exactly
on half a unit, the prepaid balance and the total cost are both rounded up, and
one unit is there twice.  `halfCharge` is the condition on a step that it makes
such a charge; in a run without one every ledger agrees (`hourly_ledger`).
-/
import Incudal.HourlySettlements
import Incudal.Lib.Machine
import Incudal.Provisioning

namespace Incudal

/-! ## The ledgers -/

/-- The prepaid balances of a user's accounts. -/
def hourlyPrepaidOf (db : Db) (userId : ℕ) : Units :=
  Keyed.total (fun a : HourlyBillingAccount =>
    if (db.instances a.instanceId).any (·.userId == userId) then a.prepaidBalance else 0)
    db.hourlyAccounts

/-- What has been earned from an instance. -/
def hourlyIncomeOf (db : Db) (instanceId : ℕ) : Units :=
  Keyed.total HostingBalanceLog.amount
    (db.hostingLogs.filter fun l => l.type == .income && l.relatedId == some instanceId)

/-- What holds of every account. -/
structure HourlyBillingAccount.Balanced (a : HourlyBillingAccount) : Prop where
  conserved : a.totalReserved = a.prepaidBalance + a.totalReleased + (a.totalCost - a.outstanding)
  prepaid : 0 ≤ a.prepaidBalance
  outstanding : 0 ≤ a.outstanding
  active : a.status = .active → a.outstanding = 0
  suspended : a.status = .suspended → a.prepaidBalance = 0

/-- The balances of the users, the accounts and the income of the host owners agree. -/
structure HourlySound (db : Db) : Prop where
  reserved : ∀ userId user, db.users userId = some user →
    user.hourlyReservedBalance = hourlyPrepaidOf db userId
  balance : ∀ userId user, db.users userId = some user → 0 ≤ user.balance
  accounts : ∀ a ∈ db.hourlyAccounts, a.Balanced
  income : ∀ a ∈ db.hourlyAccounts, (hourlyIncomeOwner db a.instanceId).isSome = true →
    hourlyIncomeOf db a.instanceId = a.totalCost - a.outstanding

/-! ## Steps -/

/-- What happens to the accounts; an operation comes with its time, and with the resources and the
prices that it reads. -/
inductive HourlyEvent
  | open (instanceId : ℕ) (inst : Instance) (pricing : HourlyPricing) (now : Time)
  | settle (instanceId : ℕ) (now : Time) (rates : HourlyRates) (force : Bool)
  | activate (instanceId : ℕ) (now : Time) (rates : HourlyRates)
  | pause (instanceId : ℕ) (now : Time) (rates : HourlyRates)
  | resume (instanceId userId : ℕ) (now : Time) (rates : HourlyRates)
  | close (instanceId : ℕ) (now : Time) (rates : HourlyRates)
  | claimForCleanup (instanceId : ℕ) (reclaim : Bool)
  | failProvision (instanceId : ℕ) (now : Time)
  /-- the instance starts, stops, or is deleted -/
  | setStatus (instanceId : ℕ) (status : InstanceStatus)
  /-- whatever else moves the balance of a user, which it does not overdraw -/
  | setBalance (userId : ℕ) (balance : ℕ)
deriving DecidableEq, Repr

def hourlyStep (db : Db) : HourlyEvent → Option Db
  | .open instanceId inst pricing now =>
      if (db.instances instanceId).isNone && inst.billingMode == .hourly then
        (openHourlyAccount (db.setInstance instanceId inst) now pricing instanceId
          inst.userId).toOption
      else none
  | .settle instanceId now rates force =>
      (settleInTransaction db now rates instanceId force).toOption.map Prod.fst
  | .activate instanceId now rates =>
      (activateHourlyBilling db now rates instanceId).toOption.map Prod.fst
  | .pause instanceId now rates =>
      (pauseHourlyBilling db now rates instanceId).toOption.map Prod.fst
  | .resume instanceId userId now rates =>
      (resumeHourlyBilling db now rates instanceId userId).toOption
  | .close instanceId now rates =>
      (closeHourlyBilling db now rates instanceId).toOption.map Prod.fst
  | .claimForCleanup instanceId reclaim =>
      some (claimCreatingInstanceForCleanup db instanceId reclaim).1
  | .failProvision instanceId now =>
      if (db.instances instanceId).any (·.billingMode == .hourly) then
        (failCreatingInstanceAndRefund db { now } instanceId).toOption.map Prod.fst
      else none
  | .setStatus instanceId status =>
      some (db.updateInstance instanceId fun inst => { inst with status })
  | .setBalance userId balance =>
      some (db.updateUser userId fun user => { user with balance })

/-! ## The charges that go wrong -/

/-- A settlement now would charge an amount that ends on half a unit, and it would be paid in
full. -/
def halfCharge (db : Db) (instanceId : ℕ) (now : Time) (rates : HourlyRates) (force : Bool) :
    Bool :=
  match db.hourlyAccount instanceId, db.instances instanceId with
  | some account, some inst =>
      if account.status = .active ∧ (force = true ∨ inst.status = .running) then
        match rates.getAccountPricing with
        | .error _ => false
        | .ok pricing =>
            match hourlyCharge rates.resources pricing
                (activeSeconds account.lastSettledAt now) with
            | .error _ => false
            | .ok actualAmount =>
                decide (Int.fract actualAmount = 1 / 2) &&
                  (decide (actualAmount ≤ account.prepaidBalance) ||
                    match ceilToQuantum (actualAmount - account.prepaidBalance)
                        pricing.reserveQuantum, db.users inst.userId with
                    | .ok additional, some user => decide (additional ≤ user.balance)
                    | _, _ => false)
      else false
  | _, _ => false

/-- The step makes no such charge. -/
def noHalfCharge (db : Db) (event : HourlyEvent) : Bool :=
  match event with
  | .settle instanceId now rates force => !halfCharge db instanceId now rates force
  | .pause instanceId now rates | .close instanceId now rates =>
      !halfCharge db instanceId now rates true
  | _ => true

/-- Before the first account: nothing is frozen, and the income there is comes from instances that
are there. -/
structure HourlyStart (db : Db) : Prop where
  accounts : db.hourlyAccounts = []
  users : ∀ userId user, db.users userId = some user →
    user.hourlyReservedBalance = 0 ∧ 0 ≤ user.balance
  income : ∀ l ∈ db.hostingLogs, ∀ i, l.relatedId = some i → (db.instances i).isSome = true

/-! ## What moves -/

/-- The frozen balance of `u` moves by `frozen`, and `earned` more has been earned from `i` if its
host has an owner who earns; the accounts are as they were. -/
structure HourlyShift (i u : ℕ) (frozen earned : Units) (db db' : Db) : Prop where
  users : ∀ v user', db'.users v = some user' → ∃ user, db.users v = some user ∧
    user'.hourlyReservedBalance = user.hourlyReservedBalance + (if v = u then frozen else 0) ∧
    (0 ≤ user.balance → 0 ≤ user'.balance)
  roles : ∀ v, (db'.users v).map (·.role) = (db.users v).map (·.role)
  instances : ∀ j, (db'.instances j).map (fun inst => (inst.userId, inst.hostId)) =
    (db.instances j).map (fun inst => (inst.userId, inst.hostId))
  hosts : db'.hosts = db.hosts
  accounts : db'.hourlyAccounts = db.hourlyAccounts
  logs : ∃ logs, db'.hostingLogs = db.hostingLogs ++ logs ∧
    (∀ l ∈ logs, l.type = .income ∧ l.relatedId = some i) ∧
    ((hourlyIncomeOwner db i).isSome = true → Keyed.total HostingBalanceLog.amount logs = earned)

/-- Who earns does not depend on balances and statuses. -/
theorem hourlyIncomeOwner_congr {db db' : Db}
    (hroles : ∀ v, (db'.users v).map (·.role) = (db.users v).map (·.role))
    (hinstances : ∀ j, (db'.instances j).map (fun inst => (inst.userId, inst.hostId)) =
      (db.instances j).map (fun inst => (inst.userId, inst.hostId)))
    (hhosts : db'.hosts = db.hosts) (i : ℕ) : hourlyIncomeOwner db' i = hourlyIncomeOwner db i := by
  have hinst := hinstances i
  unfold hourlyIncomeOwner
  cases hrow : db.instances i with
  | none =>
    rw [hrow, Option.map_none, Option.map_eq_none_iff] at hinst
    rw [hinst]
  | some inst =>
    rw [hrow, Option.map_some, Option.map_eq_some_iff] at hinst
    obtain ⟨inst', hrow', hsame⟩ := hinst
    have hhost : inst'.hostId = inst.hostId := (Prod.mk.inj hsame).2
    simp only [hrow', hhosts, hhost]
    cases db.hosts inst.hostId with
    | none => rfl
    | some host =>
      have hrole := hroles host.userId
      cases howner : db.users host.userId with
      | none =>
        rw [howner, Option.map_none, Option.map_eq_none_iff] at hrole
        simp only [hrole, howner]
      | some owner =>
        rw [howner, Option.map_some, Option.map_eq_some_iff] at hrole
        obtain ⟨owner', howner', hsame⟩ := hrole
        simp only [howner', howner, hsame]

namespace HourlyShift

variable {i u : ℕ} {frozen frozen' earned earned' : Units} {db db' db'' : Db}

theorem owner (h : HourlyShift i u frozen earned db db') (j : ℕ) :
    hourlyIncomeOwner db' j = hourlyIncomeOwner db j :=
  hourlyIncomeOwner_congr h.roles h.instances h.hosts j

theorem refl (db : Db) : HourlyShift i u 0 0 db db where
  users := fun v user h => ⟨user, h, by simp, id⟩
  roles := fun _ => rfl
  instances := fun _ => rfl
  hosts := rfl
  accounts := rfl
  logs := ⟨[], (List.append_nil _).symm, by simp, fun _ => rfl⟩

theorem trans (h : HourlyShift i u frozen earned db db')
    (h' : HourlyShift i u frozen' earned' db' db'') :
    HourlyShift i u (frozen + frozen') (earned + earned') db db'' where
  users := by
    intro v user'' huser''
    obtain ⟨user', huser', hfrozen', hbalance'⟩ := h'.users v user'' huser''
    obtain ⟨user, huser, hfrozen, hbalance⟩ := h.users v user' huser'
    refine ⟨user, huser, ?_, hbalance' ∘ hbalance⟩
    rw [hfrozen', hfrozen]
    split_ifs
    · exact Int.add_assoc _ _ _
    · exact Int.add_zero _
  roles := fun v => (h'.roles v).trans (h.roles v)
  instances := fun j => (h'.instances j).trans (h.instances j)
  hosts := h'.hosts.trans h.hosts
  accounts := h'.accounts.trans h.accounts
  logs := by
    obtain ⟨logs, hlogs, hkind, htotal⟩ := h.logs
    obtain ⟨logs', hlogs', hkind', htotal'⟩ := h'.logs
    refine ⟨logs ++ logs', by rw [hlogs', hlogs, List.append_assoc], fun l hl => ?_, fun howner => ?_⟩
    · rcases List.mem_append.mp hl with hl | hl
      · exact hkind l hl
      · exact hkind' l hl
    · rw [Keyed.total_append, htotal howner, htotal' ((h.owner i).symm ▸ howner)]

/-- A step after which everything stays. -/
theorem andSame (h : HourlyShift i u frozen earned db db') (h' : HourlyShift i u 0 0 db' db'') :
    HourlyShift i u frozen earned db db'' := by
  have hboth := h.trans h'
  rwa [add_zero, add_zero] at hboth

/-- Nothing that counts here has changed. -/
theorem of_eq (husers : db'.users = db.users) (hinstances : db'.instances = db.instances)
    (hhosts : db'.hosts = db.hosts) (haccounts : db'.hourlyAccounts = db.hourlyAccounts)
    (hlogs : db'.hostingLogs = db.hostingLogs) : HourlyShift i u 0 0 db db' where
  users := fun v user h => ⟨user, husers ▸ h, by simp, id⟩
  roles := fun v => by rw [husers]
  instances := fun j => by rw [hinstances]
  hosts := hhosts
  accounts := haccounts
  logs := ⟨[], by rw [hlogs, List.append_nil], by simp, fun _ => rfl⟩

/-- The row of one user is rewritten. -/
theorem updateUser {f : User → User} (user : User) (huser : db.users u = some user)
    (hrole : (f user).role = user.role)
    (hfrozen : (f user).hourlyReservedBalance = user.hourlyReservedBalance + frozen)
    (hbalance : 0 ≤ user.balance → 0 ≤ (f user).balance) :
    HourlyShift i u frozen 0 db (db.updateUser u f) where
  users := by
    intro v user' huser'
    have hupdated : Function.update db.users u ((db.users u).map f) v = some user' := huser'
    by_cases hv : v = u
    · rw [hv, Function.update_self, huser, Option.map_some] at hupdated
      obtain rfl := Option.some.inj hupdated
      exact ⟨user, hv ▸ huser, by rw [if_pos hv, hfrozen], hbalance⟩
    · rw [Function.update_of_ne hv] at hupdated
      exact ⟨user', hupdated, by simp [hv], id⟩
  roles := by
    intro v
    show (Function.update db.users u ((db.users u).map f) v).map _ = _
    by_cases hv : v = u
    · rw [hv, Function.update_self, huser]
      exact congrArg some hrole
    · rw [Function.update_of_ne hv]
  instances := fun _ => rfl
  hosts := rfl
  accounts := rfl
  logs := ⟨[], (List.append_nil _).symm, by simp, fun _ => rfl⟩

/-- An instance changes its status. -/
theorem updateInstance (j : ℕ) {f : Instance → Instance}
    (hf : ∀ inst, (f inst).userId = inst.userId ∧ (f inst).hostId = inst.hostId) :
    HourlyShift i u 0 0 db (db.updateInstance j f) where
  users := fun v user h => ⟨user, h, by simp, id⟩
  roles := fun _ => rfl
  instances := by
    intro k
    show (Function.update db.instances j ((db.instances j).map f) k).map _ = _
    by_cases hk : k = j
    · rw [hk, Function.update_self, Option.map_map]
      refine congrArg (fun g => (db.instances j).map g) (funext fun inst => ?_)
      exact Prod.ext (hf inst).1 (hf inst).2
    · rw [Function.update_of_ne hk]
  hosts := rfl
  accounts := rfl
  logs := ⟨[], (List.append_nil _).symm, by simp, fun _ => rfl⟩

theorem suspendHourly (statuses : List InstanceStatus) :
    HourlyShift i u 0 0 db (db.suspendHourly i statuses) := by
  refine updateInstance i fun inst => ?_
  split
  · exact ⟨rfl, rfl⟩
  · exact ⟨rfl, rfl⟩

/-- The income of an amount of whole units, or of one that is not positive. -/
theorem income (now : Time) {amount : ℚ} (hearned : toColumn amount = earned) (h0 : 0 ≤ amount) :
    HourlyShift i u 0 earned db (createHourlyHostingIncome db now i amount) := by
  unfold createHourlyHostingIncome
  by_cases hpos : amount ≤ 0
  · rw [if_pos hpos]
    have hzero : earned = 0 := by
      rw [← hearned, le_antisymm hpos h0]
      exact Rounding.halfAway_zero
    subst hzero
    exact refl db
  · rw [if_neg hpos]
    cases howner : hourlyIncomeOwner db i with
    | none =>
      refine ⟨(refl (i := i) (u := u) db).users, fun _ => rfl, fun _ => rfl, rfl, rfl,
        [], (List.append_nil _).symm, by simp, fun hsome => ?_⟩
      rw [howner] at hsome
      cases hsome
    | some owner =>
      refine ⟨fun v user h => ⟨user, h, by simp, id⟩, fun _ => rfl, fun _ => rfl, rfl, rfl,
        _, rfl, fun l hl => ?_, fun _ => ?_⟩
      · obtain rfl := List.mem_singleton.mp hl
        exact ⟨rfl, rfl⟩
      · rw [Keyed.total_cons, Keyed.total_nil, add_zero]
        exact hearned

theorem users_createHourlyHostingIncome (now : Time) (amount : ℚ) {v : ℕ} :
    (createHourlyHostingIncome db now i amount).users v = db.users v := by
  unfold createHourlyHostingIncome
  split
  · rfl
  · split <;> rfl

/-- What could be frozen, and how much that is. -/
theorem reserve {user : User} (huser : db.users u = some user) (amount balance : Units) :
    HourlyShift i u (reserveForHourlyCharge db u i amount balance).2.1 0 db
        (reserveForHourlyCharge db u i amount balance).1 ∧
      0 ≤ (reserveForHourlyCharge db u i amount balance).2.1 ∧
      (reserveForHourlyCharge db u i amount balance).1.users u = some { user with
        balance := user.balance - (reserveForHourlyCharge db u i amount balance).2.1
        hourlyReservedBalance := user.hourlyReservedBalance +
          (reserveForHourlyCharge db u i amount balance).2.1 } := by
  unfold reserveForHourlyCharge
  by_cases hamount : amount ≤ 0
  · simp only [if_pos hamount]
    exact ⟨refl db, le_rfl, by rw [huser]; simp⟩
  · simp only [if_neg hamount, huser, Option.any_some]
    by_cases hbalance : amount ≤ user.balance
    · simp only [hbalance, decide_true, Bool.not_true, Bool.false_eq_true, if_false]
      refine ⟨(updateUser user huser rfl rfl fun _ => ?_).andSame (of_eq rfl rfl rfl rfl rfl),
        (not_le.mp hamount).le, ?_⟩
      · exact Int.sub_nonneg_of_le hbalance
      · show Function.update db.users u ((db.users u).map _) u = _
        rw [Function.update_self, huser]
        rfl
    · simp only [hbalance, decide_false, Bool.not_false, if_true]
      exact ⟨refl db, le_rfl, by rw [huser]; simp⟩

/-- An amount is paid out of what is frozen, and earned: `c` is what was prepaid. -/
theorem consume (now : Time) {user : User} (huser : db.users u = some user) {c : ℤ} {paid : ℚ}
    (hcolumn : toColumn (user.hourlyReservedBalance - paid) =
      user.hourlyReservedBalance + (toColumn (c - paid) - c)) (hpaid : 0 ≤ paid) :
    HourlyShift i u (toColumn (c - paid) - c) (toColumn paid) db
      (createHourlyHostingIncome
        (if 0 < paid then
          db.updateUser u fun u =>
            { u with hourlyReservedBalance := toColumn (u.hourlyReservedBalance - paid) }
        else db) now i paid) := by
  have hfirst : HourlyShift i u (toColumn (c - paid) - c) 0 db
      (if 0 < paid then
        db.updateUser u fun u =>
          { u with hourlyReservedBalance := toColumn (u.hourlyReservedBalance - paid) }
      else db) := by
    by_cases hpos : 0 < paid
    · rw [if_pos hpos]
      exact updateUser user huser rfl hcolumn id
    · have hzero : paid = 0 := le_antisymm (not_lt.mp hpos) hpaid
      rw [if_neg hpos, hzero, sub_zero, toColumn, Rounding.halfAway_intCast, sub_self]
      exact refl db
  have hboth := hfirst.trans (income now rfl hpaid)
  rwa [add_zero, zero_add] at hboth

/-- A debt is paid out of what is frozen, and earned. -/
theorem repay (now : Time) {user : User} (huser : db.users u = some user) {owed : Units}
    (howed : 0 ≤ owed) (log : BalanceLog) :
    HourlyShift i u (-owed) owed db
      (if 0 < owed then
        (createHourlyHostingIncome (db.createBalanceLog log).1 now i owed).updateUser u fun u =>
          { u with hourlyReservedBalance := u.hourlyReservedBalance - owed }
      else db) := by
  by_cases hpos : 0 < owed
  · rw [if_pos hpos]
    have hlog : HourlyShift i u 0 0 db (db.createBalanceLog log).1 := of_eq rfl rfl rfl rfl rfl
    have hincome := hlog.trans (income (i := i) (u := u) now
      (Rounding.halfAway_intCast owed) (by exact_mod_cast howed))
    have hrow : (createHourlyHostingIncome (db.createBalanceLog log).1 now i owed).users u =
        some user := (users_createHourlyHostingIncome now _).trans huser
    have hpaid : HourlyShift i u (-owed) 0
        (createHourlyHostingIncome (db.createBalanceLog log).1 now i owed)
        ((createHourlyHostingIncome (db.createBalanceLog log).1 now i owed).updateUser u fun u =>
          { u with hourlyReservedBalance := u.hourlyReservedBalance - owed }) :=
      updateUser user hrow rfl (sub_eq_add_neg _ _) id
    have hboth := hincome.trans hpaid
    rwa [zero_add, zero_add, zero_add, add_zero] at hboth
  · have hnothing : owed = 0 := le_antisymm (not_lt.mp hpos) howed
    rw [if_neg hpos, hnothing]
    exact refl db

end HourlyShift

/-! ## The invariant -/

/-- What is kept of an account: who owes has nothing prepaid. -/
structure HourlyBillingAccount.Kept (a : HourlyBillingAccount) : Prop where
  balanced : a.Balanced
  owed : 0 < a.outstanding → a.prepaidBalance = 0
  cost : 0 ≤ a.totalCost

structure HourlyInv (db : Db) : Prop where
  keys : (db.hourlyAccounts.map (·.instanceId)).Nodup
  reserved : ∀ userId user, db.users userId = some user →
    user.hourlyReservedBalance = hourlyPrepaidOf db userId
  balance : ∀ userId user, db.users userId = some user → 0 ≤ user.balance
  accounts : ∀ a ∈ db.hourlyAccounts, a.Kept
  income : ∀ a ∈ db.hourlyAccounts, (hourlyIncomeOwner db a.instanceId).isSome = true →
    hourlyIncomeOf db a.instanceId = a.totalCost - a.outstanding
  instances : ∀ a ∈ db.hourlyAccounts, (db.instances a.instanceId).isSome = true
  logs : ∀ l ∈ db.hostingLogs, ∀ i, l.relatedId = some i → (db.instances i).isSome = true

section Invariant

variable {i : ℕ} {frozen earned : Units} {db db' : Db} {account : HourlyBillingAccount}
  {inst : Instance}

theorem HourlyInv.sound (h : HourlyInv db) : HourlySound db where
  reserved := h.reserved
  balance := h.balance
  accounts := fun a ha => (h.accounts a ha).balanced
  income := h.income

/-- The instances are still those of the same users. -/
theorem HourlyShift.isUser {u : ℕ} (h : HourlyShift i u frozen earned db db') (j v : ℕ) :
    (db'.instances j).any (·.userId == v) = (db.instances j).any (·.userId == v) := by
  have hsame := h.instances j
  cases hrow : db.instances j with
  | none =>
    rw [hrow, Option.map_none, Option.map_eq_none_iff] at hsame
    rw [hsame]
  | some inst =>
    rw [hrow, Option.map_some, Option.map_eq_some_iff] at hsame
    obtain ⟨inst', hrow', hpair⟩ := hsame
    have huser : inst'.userId = inst.userId := (Prod.mk.inj hpair).1
    rw [hrow', Option.any_some, Option.any_some, huser]

theorem HourlyShift.isThere {u : ℕ} (h : HourlyShift i u frozen earned db db') (j : ℕ) :
    (db'.instances j).isSome = (db.instances j).isSome := by
  have hsame := congrArg Option.isSome (h.instances j)
  rwa [Option.isSome_map, Option.isSome_map] at hsame

/-- What has been earned from an instance after a shift. -/
theorem HourlyShift.earns {u : ℕ} (h : HourlyShift i u frozen earned db db')
    (howner : (hourlyIncomeOwner db i).isSome = true) :
    hourlyIncomeOf db' i = hourlyIncomeOf db i + earned := by
  obtain ⟨logs, hlogs, hkind, htotal⟩ := h.logs
  have hall : logs.filter (fun l => l.type == .income && l.relatedId == some i) = logs := by
    refine List.filter_eq_self.mpr fun l hl => ?_
    rw [(hkind l hl).1, (hkind l hl).2]
    simp
  rw [hourlyIncomeOf, hlogs, List.filter_append, Keyed.total_append, hall, htotal howner]
  rfl

theorem HourlyShift.earns_of_ne {u j : ℕ} (h : HourlyShift i u frozen earned db db')
    (hj : j ≠ i) : hourlyIncomeOf db' j = hourlyIncomeOf db j := by
  obtain ⟨logs, hlogs, hkind, -⟩ := h.logs
  have hnone : logs.filter (fun l => l.type == .income && l.relatedId == some j) = [] := by
    refine List.filter_eq_nil_iff.mpr fun l hl => ?_
    rw [(hkind l hl).2]
    simp [Ne.symm hj]
  rw [hourlyIncomeOf, hlogs, List.filter_append, hnone, List.append_nil]
  rfl

/-- What is earned comes from instances that are there. -/
theorem HourlyShift.keepsLogs {u : ℕ} (h : HourlyShift i u frozen earned db db')
    (hlogs : ∀ l ∈ db.hostingLogs, ∀ j, l.relatedId = some j → (db.instances j).isSome = true)
    (hinst : db.instances i = some inst) :
    ∀ l ∈ db'.hostingLogs, ∀ j, l.relatedId = some j → (db'.instances j).isSome = true := by
  intro l hl j hj
  rw [h.isThere]
  obtain ⟨logs, happended, hkind, -⟩ := h.logs
  rcases List.mem_append.mp (happended ▸ hl) with hold | hnew
  · exact hlogs l hold j hj
  · obtain rfl : i = j := Option.some.inj ((hkind l hnew).2.symm.trans hj)
    rw [hinst]
    rfl

/-- An account is rewritten, with the frozen balance and the income that go with it. -/
theorem HourlyInv.move (h : HourlyInv db) (hinst : db.instances i = some inst)
    (haccount : db.hourlyAccount i = some account)
    (hshift : HourlyShift i inst.userId frozen earned db db')
    {f : HourlyBillingAccount → HourlyBillingAccount} (hf : ∀ a, (f a).instanceId = a.instanceId)
    (hprepaid : (f account).prepaidBalance = account.prepaidBalance + frozen)
    (hearned : (f account).totalCost - (f account).outstanding =
      account.totalCost - account.outstanding + earned)
    (hkept : (f account).Kept) :
    HourlyInv { db' with
      hourlyAccounts := Keyed.modify HourlyBillingAccount.instanceId i f db'.hourlyAccounts } := by
  obtain ⟨hmem, hid⟩ := Keyed.mem_of_lookup haccount
  have hcases : ∀ a ∈ Keyed.modify HourlyBillingAccount.instanceId i f db'.hourlyAccounts,
      (a ∈ db.hourlyAccounts ∧ a.instanceId ≠ i) ∨ a = f account := by
    intro a ha
    rw [hshift.accounts] at ha
    obtain ⟨b, hb, rfl⟩ := Keyed.mem_modify.mp ha
    by_cases hkey : b.instanceId = i
    · rw [if_pos hkey]
      have hsame : b = account := List.inj_on_of_nodup_map h.keys hb hmem (hkey.trans hid.symm)
      exact .inr (congrArg f hsame)
    · rw [if_neg hkey]
      exact .inl ⟨hb, hkey⟩
  refine ⟨?_, fun v user' huser' => ?_, fun v user' huser' => ?_, fun a ha => ?_,
    fun a ha howner => ?_, fun a ha => ?_, fun l hl j hj => ?_⟩
  · show (List.map _ (Keyed.modify _ i f db'.hourlyAccounts)).Nodup
    rw [hshift.accounts, Keyed.map_key_modify hf]
    exact h.keys
  · obtain ⟨user, huser, hreserved, -⟩ := hshift.users v user' huser'
    rw [hreserved, h.reserved v user huser]
    unfold hourlyPrepaidOf
    have hcolumn : ∀ rows : List HourlyBillingAccount,
        Keyed.total (fun a : HourlyBillingAccount =>
          if (db'.instances a.instanceId).any (·.userId == v) then a.prepaidBalance else 0) rows =
        Keyed.total (fun a : HourlyBillingAccount =>
          if (db.instances a.instanceId).any (·.userId == v) then a.prepaidBalance else 0) rows :=
      fun rows => Keyed.total_congr fun a _ => by rw [hshift.isUser]
    show _ = Keyed.total _ (Keyed.modify _ i f db'.hourlyAccounts)
    rw [hcolumn, hshift.accounts, ← hid, Keyed.total_modify h.keys hmem, hf, hid, hinst,
      hprepaid, Option.any_some]
    by_cases hv : v = inst.userId
    · subst hv
      simp only [beq_self_eq_true, if_true]
      ring
    · have hne : (inst.userId == v) = false := beq_false_of_ne (Ne.symm hv)
      simp [hne, hv]
  · obtain ⟨user, huser, -, hbalance⟩ := hshift.users v user' huser'
    exact hbalance (h.balance v user huser)
  · rcases hcases a ha with ⟨hold, -⟩ | rfl
    · exact h.accounts a hold
    · exact hkept
  · have howner' : (hourlyIncomeOwner db a.instanceId).isSome = true :=
      (hshift.owner a.instanceId) ▸ howner
    show hourlyIncomeOf db' a.instanceId = _
    rcases hcases a ha with ⟨hold, hne⟩ | rfl
    · rw [hshift.earns_of_ne hne]
      exact h.income a hold howner'
    · rw [hf, hid] at howner' ⊢
      have hold := h.income account hmem (hid.symm ▸ howner')
      rw [hid] at hold
      rw [hshift.earns howner', hold, hearned]
  · show (db'.instances a.instanceId).isSome = true
    rw [hshift.isThere]
    rcases hcases a ha with ⟨hold, -⟩ | rfl
    · exact h.instances a hold
    · rw [hf]
      exact h.instances account hmem
  · exact hshift.keepsLogs h.logs hinst l hl j hj

/-- Nothing of the ledgers has moved. -/
theorem HourlyInv.same {u : ℕ} (h : HourlyInv db) (hshift : HourlyShift i u 0 0 db db')
    (hlogs : db'.hostingLogs = db.hostingLogs) : HourlyInv db' := by
  have haccounts := hshift.accounts
  refine ⟨haccounts ▸ h.keys, fun v user' huser' => ?_, fun v user' huser' => ?_, fun a ha => ?_,
    fun a ha howner => ?_, fun a ha => ?_, fun l hl j hj => ?_⟩
  · obtain ⟨user, huser, hreserved, -⟩ := hshift.users v user' huser'
    rw [hreserved, h.reserved v user huser, ite_self, add_zero]
    unfold hourlyPrepaidOf
    rw [haccounts]
    exact Keyed.total_congr fun a _ => by rw [hshift.isUser]
  · obtain ⟨user, huser, -, hbalance⟩ := hshift.users v user' huser'
    exact hbalance (h.balance v user huser)
  · exact h.accounts a (haccounts ▸ ha)
  · rw [hshift.owner] at howner
    rw [← h.income a (haccounts ▸ ha) howner]
    by_cases hid : a.instanceId = i
    · rw [hid] at howner ⊢
      rw [hshift.earns howner, add_zero]
    · exact hshift.earns_of_ne hid
  · rw [hshift.isThere]
    exact h.instances a (haccounts ▸ ha)
  · rw [hshift.isThere]
    exact h.logs l (hlogs ▸ hl) j hj

/-! ## A charge -/

/-- A charge keeps the account balanced, unless it ends on half a unit and is paid in full. -/
theorem charged_kept {a : HourlyBillingAccount} (h : a.Kept) (hactive : a.status = .active)
    (now : Time) (seconds : ℕ) {x : ℚ} {r : Units} (hx : 0 ≤ x) (hr : 0 ≤ r)
    (hhalf : x ≤ (a.prepaidBalance + r : ℤ) → Int.fract x ≠ 1 / 2) :
    (a.charged now seconds x r).Kept ∧
      (a.charged now seconds x r).totalCost - (a.charged now seconds x r).outstanding =
        a.totalCost - a.outstanding + toColumn (min ((a.prepaidBalance + r : ℤ) : ℚ) x) := by
  have hout : a.outstanding = 0 := h.balanced.active hactive
  have hconserved := h.balanced.conserved
  rw [hout, sub_zero] at hconserved
  have hcost : (0 : ℚ) ≤ a.totalCost := by exact_mod_cast h.cost
  have hround : 0 ≤ Rounding.halfAway x := Rounding.halfAway_nonneg hx
  have htotal : toColumn (a.totalCost + x) = Rounding.halfAway x + a.totalCost := by
    rw [add_comm]
    exact Rounding.halfAway_add_int hx (by linarith)
  obtain ⟨c, hc⟩ : ∃ c : ℤ, c = a.prepaidBalance + r := ⟨_, rfl⟩
  have hc0 : 0 ≤ c := hc ▸ Int.add_nonneg h.balanced.prepaid hr
  rw [← hc] at hhalf ⊢
  rcases le_or_gt x c with hcovered | hshort
  · -- paid in full: the prepaid balance and the cost are rounded once each
    have hpaid : min (c : ℚ) x = x := min_eq_right hcovered
    have hleft : toColumn (c - x) = c - Rounding.halfAway x :=
      (Rounding.halfAway_int_sub_iff hx hcovered).mpr fun heq =>
        hhalf hcovered ((Rounding.halfAway_sub_self_iff hx).mp heq)
    have hnothing : toColumn (a.outstanding + 0) = 0 := by
      rw [hout, Int.cast_zero, add_zero]
      exact Rounding.halfAway_zero
    have hle : Rounding.halfAway x ≤ c := Rounding.halfAway_le_of_le hc0 hcovered
    have hafter : a.charged now seconds x r =
        { a with
          lastSettledAt := a.lastSettledAt + seconds * 1000
          nextSettlementAt := some (now + settlementIntervalMs)
          prepaidBalance := c - Rounding.halfAway x
          totalCost := Rounding.halfAway x + a.totalCost
          totalReserved := a.totalReserved + r
          outstanding := 0
          status := .active
          version := a.version + 1 } := by
      simp only [HourlyBillingAccount.charged, ← hc, hpaid, hleft, htotal, hnothing, sub_self,
        lt_irrefl, decide_false, Bool.false_eq_true, if_false]
    rw [hafter, hpaid]
    refine ⟨⟨⟨?_, ?_, le_rfl, fun _ => rfl, fun hs => by cases hs⟩, fun hs => ?_, ?_⟩, ?_⟩
    · show a.totalReserved + r = c - Rounding.halfAway x + a.totalReleased +
        (Rounding.halfAway x + a.totalCost - 0)
      rw [hconserved, hc]
      ring
    · exact Int.sub_nonneg_of_le hle
    · exact absurd hs (lt_irrefl _)
    · exact Int.add_nonneg hround h.cost
    · show Rounding.halfAway x + a.totalCost - 0 = a.totalCost - a.outstanding + toColumn x
      rw [hout, toColumn]
      ring
  · -- what is prepaid does not reach: the rest is outstanding
    have hpaid : min (c : ℚ) x = c := min_eq_left hshort.le
    have hrest : toColumn (a.outstanding + (x - c)) = Rounding.halfAway x - c := by
      rw [hout, Int.cast_zero, zero_add, toColumn]
      have hsub := Rounding.halfAway_add_int (n := -c) hx (by push_cast; linarith)
      push_cast at hsub
      rw [sub_eq_add_neg, hsub]
      ring
    have hnothing : toColumn (c - c) = 0 := by
      rw [sub_self]
      exact Rounding.halfAway_zero
    have hunpaid : (0 : ℚ) < x - c := sub_pos.mpr hshort
    have hle : c ≤ Rounding.halfAway x := by
      have hmono := Rounding.halfAway_mono hshort.le
      rwa [Rounding.halfAway_intCast] at hmono
    have hafter : a.charged now seconds x r =
        { a with
          lastSettledAt := a.lastSettledAt + seconds * 1000
          nextSettlementAt := none
          prepaidBalance := 0
          totalCost := Rounding.halfAway x + a.totalCost
          totalReserved := a.totalReserved + r
          outstanding := Rounding.halfAway x - c
          status := .suspended
          version := a.version + 1 } := by
      simp only [HourlyBillingAccount.charged, ← hc, hpaid, hrest, htotal, hnothing, hunpaid,
        decide_true, if_true]
    rw [hafter, hpaid]
    refine ⟨⟨⟨?_, le_rfl, ?_, fun hs => (by cases hs), fun _ => rfl⟩, fun _ => rfl, ?_⟩, ?_⟩
    · show a.totalReserved + r = 0 + a.totalReleased +
        (Rounding.halfAway x + a.totalCost - (Rounding.halfAway x - c))
      rw [hconserved, hc]
      ring
    · exact Int.sub_nonneg_of_le hle
    · exact Int.add_nonneg hround h.cost
    · show Rounding.halfAway x + a.totalCost - (Rounding.halfAway x - c) =
        a.totalCost - a.outstanding + toColumn c
      rw [hout, toColumn, Rounding.halfAway_intCast]
      ring

/-- No account of a user has more prepaid than the user has frozen. -/
theorem HourlyInv.prepaid_le (h : HourlyInv db) (hinst : db.instances i = some inst)
    (haccount : db.hourlyAccount i = some account) {user : User}
    (huser : db.users inst.userId = some user) :
    account.prepaidBalance ≤ user.hourlyReservedBalance := by
  obtain ⟨hmem, hid⟩ := Keyed.mem_of_lookup haccount
  rw [h.reserved inst.userId user huser]
  have hnonneg : ∀ a ∈ db.hourlyAccounts, 0 ≤
      (if (db.instances a.instanceId).any (·.userId == inst.userId) then a.prepaidBalance
        else 0) := by
    intro a ha
    split_ifs
    · exact (h.accounts a ha).balanced.prepaid
    · exact le_rfl
  have hle := Keyed.le_total hnonneg hmem
  rw [hid, hinst, Option.any_some, beq_self_eq_true, if_pos rfl] at hle
  exact hle

theorem HourlyInv.charge (h : HourlyInv db) (hinst : db.instances i = some inst)
    (haccount : db.hourlyAccount i = some account) (hactive : account.status = .active)
    {user : User} (huser : db.users inst.userId = some user) (now : Time) (seconds : ℕ) {x : ℚ}
    {additional : Units} (hx : 0 ≤ x)
    (hhalf : x ≤ (account.prepaidBalance +
      (reserveForHourlyCharge db inst.userId i additional user.balance).2.1 : ℤ) →
        Int.fract x ≠ 1 / 2) :
    HourlyInv (chargeHourly db now account inst user seconds x additional).1 := by
  obtain ⟨hmem, hid⟩ := Keyed.mem_of_lookup haccount
  obtain ⟨hreserve, hr, hreserved⟩ :=
    HourlyShift.reserve (i := i) huser additional user.balance
  have hle := h.prepaid_le hinst haccount huser
  subst hid
  unfold chargeHourly
  dsimp only
  generalize reserveForHourlyCharge db inst.userId account.instanceId additional user.balance =
    result at *
  obtain ⟨db₁, r, balanceAfter⟩ := result
  dsimp only at *
  obtain ⟨hkept, hearned⟩ := charged_kept (h.accounts account hmem) hactive now seconds hx hr hhalf
  obtain ⟨c, hc⟩ : ∃ c : ℤ, c = account.prepaidBalance + r := ⟨_, rfl⟩
  have hc0 : 0 ≤ c := hc ▸ Int.add_nonneg (h.accounts account hmem).balanced.prepaid hr
  obtain ⟨paid, hpaid⟩ : ∃ paid : ℚ, paid = min (c : ℚ) x := ⟨_, rfl⟩
  have hpaid0 : 0 ≤ paid := hpaid ▸ le_min (by exact_mod_cast hc0) hx
  have hpaidc : paid ≤ c := hpaid ▸ min_le_left _ _
  rw [← hc, ← hpaid]
  rw [← hc, ← hpaid] at hearned
  -- the frozen balance loses what the prepaid balance loses
  have hfrozen : toColumn ((user.hourlyReservedBalance + r : ℤ) - paid) =
      (user.hourlyReservedBalance + r) + (toColumn (c - paid) - c) := by
    obtain ⟨n, hn⟩ : ∃ n : ℤ, n = user.hourlyReservedBalance + r - c := ⟨_, rfl⟩
    have hn0 : 0 ≤ n := by
      rw [hn, hc]
      linarith
    have hn0' : (0 : ℚ) ≤ n := by exact_mod_cast hn0
    have hsum : ((user.hourlyReservedBalance + r : ℤ) : ℚ) - paid = (c - paid) + n := by
      rw [hn]
      push_cast
      ring
    rw [hsum, toColumn, Rounding.halfAway_add_int (by linarith) (by linarith), hn, toColumn]
    ring
  generalize hlog : (if 0 < seconds ∨ 0 < additional ∨ 0 < x then
    (db₁.createBalanceLog
      { id := 0, userId := inst.userId, type := .hourlyConsume, amount := toColumn paid
        balanceBefore := balanceAfter, balanceAfter
        instanceId := some account.instanceId }).1 else db₁) = db₂
  have hsame : HourlyShift account.instanceId inst.userId 0 0 db₁ db₂ ∧
      db₂.users = db₁.users := by
    rw [← hlog]
    split_ifs
    · exact ⟨.of_eq rfl rfl rfl rfl rfl, rfl⟩
    · exact ⟨.refl db₁, rfl⟩
  have hconsume := HourlyShift.consume (i := account.instanceId) now
    ((congrFun hsame.2 inst.userId).trans hreserved) hfrozen hpaid0
  have hshift := (hreserve.andSame hsame.1).trans hconsume
  rw [zero_add] at hshift
  let f : HourlyBillingAccount → HourlyBillingAccount := fun a =>
    { a with
        lastSettledAt := account.lastSettledAt + seconds * 1000
        nextSettlementAt := if decide (0 < x - paid) then none else some (now + settlementIntervalMs)
        prepaidBalance := toColumn (c - paid)
        totalCost := toColumn (a.totalCost + x)
        totalReserved := a.totalReserved + r
        outstanding := toColumn (a.outstanding + (x - paid))
        status := if decide (0 < x - paid) then .suspended else .active
        version := a.version + 1 }
  have hcharged : f account = account.charged now seconds x r := by
    simp only [f, HourlyBillingAccount.charged, ← hc, ← hpaid]
  have hprepaid : (f account).prepaidBalance =
      account.prepaidBalance + (r + (toColumn (c - paid) - c)) := by
    show toColumn (c - paid) = _
    rw [hc]
    ring
  have hinv := h.move (f := f) hinst haccount hshift (fun _ => rfl) hprepaid
    (by rw [hcharged]; exact hearned) (by rw [hcharged]; exact hkept)
  by_cases hsuspended : decide (0 < x - paid) = true
  · rw [if_pos hsuspended]
    exact hinv.same (HourlyShift.suspendHourly (u := inst.userId) [.running]) rfl
  · rw [if_neg hsuspended]
    exact hinv

/-! ## The operations -/

/-- The account of an instance is rewritten, and counts what it counted. -/
theorem HourlyInv.rewrite (h : HourlyInv db) (hinst : db.instances i = some inst)
    (haccount : db.hourlyAccount i = some account)
    {f : HourlyBillingAccount → HourlyBillingAccount} (hf : ∀ a, (f a).instanceId = a.instanceId)
    (hprepaid : (f account).prepaidBalance = account.prepaidBalance)
    (hearned : (f account).totalCost - (f account).outstanding =
      account.totalCost - account.outstanding)
    (hkept : (f account).Kept) :
    HourlyInv { db with
      hourlyAccounts := Keyed.modify HourlyBillingAccount.instanceId i f db.hourlyAccounts } := by
  refine h.move hinst haccount (HourlyShift.refl db) hf ?_ ?_ hkept
  · rw [hprepaid, add_zero]
  · rw [hearned, add_zero]

/-- An account with nothing prepaid may have any status, if it is not active with a debt. -/
theorem HourlyBillingAccount.Kept.ofNothingPrepaid {a a' : HourlyBillingAccount} (h : a.Kept)
    (hreserved : a'.totalReserved = a.totalReserved) (hprepaid : a'.prepaidBalance = 0)
    (hreleased : a'.totalReleased = a.totalReleased + a.prepaidBalance)
    (hcost : a'.totalCost = a.totalCost) (houtstanding : a'.outstanding = a.outstanding)
    (hactive : a'.status = .active → a.outstanding = 0) : a'.Kept := by
  have hconserved := h.balanced.conserved
  refine ⟨⟨?_, hprepaid.ge, houtstanding ▸ h.balanced.outstanding, ?_, fun _ => hprepaid⟩,
    fun _ => hprepaid, hcost ▸ h.cost⟩
  · rw [hreserved, hprepaid, hreleased, hcost, houtstanding, hconserved]
    ring
  · exact fun hs => houtstanding.trans (hactive hs)

/-- What is prepaid goes back to the balance. -/
theorem HourlyInv.release (h : HourlyInv db) (hinst : db.instances i = some inst)
    (haccount : db.hourlyAccount i = some account) {user : User}
    (huser : db.users inst.userId = some user) (log : BalanceLog)
    {f : HourlyBillingAccount → HourlyBillingAccount} (hf : ∀ a, (f a).instanceId = a.instanceId)
    (hprepaid : (f account).prepaidBalance = 0)
    (hearned : (f account).totalCost - (f account).outstanding =
      account.totalCost - account.outstanding)
    (hkept : (f account).Kept) :
    HourlyInv { ((db.updateUser inst.userId fun u =>
        { u with
            balance := u.balance + account.prepaidBalance
            hourlyReservedBalance :=
              u.hourlyReservedBalance - account.prepaidBalance }).createBalanceLog log).1 with
      hourlyAccounts := Keyed.modify HourlyBillingAccount.instanceId i f db.hourlyAccounts } := by
  have hnonneg : 0 ≤ account.prepaidBalance :=
    (h.accounts account (Keyed.mem_of_lookup haccount).1).balanced.prepaid
  have hpaid : HourlyShift i inst.userId (-account.prepaidBalance) 0 db
      ((db.updateUser inst.userId fun u =>
        { u with
            balance := u.balance + account.prepaidBalance
            hourlyReservedBalance :=
              u.hourlyReservedBalance - account.prepaidBalance }).createBalanceLog log).1 :=
    HourlyShift.andSame
      (.updateUser user huser rfl (sub_eq_add_neg _ _) fun hb => Int.add_nonneg hb hnonneg)
      (.of_eq rfl rfl rfl rfl rfl)
  refine h.move hinst haccount hpaid hf ?_ ?_ hkept
  · rw [hprepaid]
    exact (Int.add_right_neg _).symm
  · rw [hearned, add_zero]

/-- What is frozen for a charge: the amount, or nothing. -/
theorem reserved_cases (db : Db) (u i : ℕ) (amount balance : Units) :
    ((reserveForHourlyCharge db u i amount balance).1 = db ∧
      (reserveForHourlyCharge db u i amount balance).2.1 = 0) ∨
    (reserveForHourlyCharge db u i amount balance).2.1 = amount ∧
      (db.users u).any (fun user => decide (amount ≤ user.balance)) = true := by
  unfold reserveForHourlyCharge
  by_cases hamount : amount ≤ 0
  · rw [if_pos hamount]
    exact .inl ⟨rfl, rfl⟩
  · rw [if_neg hamount]
    by_cases hbalance : (db.users u).any (fun user => decide (amount ≤ user.balance)) = true
    · rw [if_neg (by rw [hbalance]; decide)]
      exact .inr ⟨rfl, hbalance⟩
    · rw [if_pos (by simpa using hbalance)]
      exact .inl ⟨rfl, rfl⟩

theorem hourlyCharge_nonneg {r : HourlyResources} {pricing : HourlyPricing} {seconds : ℕ} {x : ℚ}
    (h : hourlyCharge r pricing seconds = .ok x) : 0 ≤ x := by
  unfold hourlyCharge at h
  cases hb : calculateHourlyBreakdown r pricing with
  | error message =>
    rw [hb] at h
    cases h
  | ok breakdown =>
    rw [hb] at h
    obtain rfl := Except.ok.inj h
    unfold calculateHourlyBreakdown at hb
    cases hv : validateHourlyResources r pricing with
    | some message =>
      rw [hv] at hb
      cases hb
    | none =>
      rw [hv] at hb
      obtain rfl := Except.ok.inj hb
      unfold calculateHourlyCost
      positivity

/-- A settlement keeps the ledgers, unless it makes a charge that goes wrong. -/
theorem HourlyInv.settle {now : Time} {rates : HourlyRates} {force suspended : Bool}
    (h : HourlyInv db) (hhalf : halfCharge db i now rates force = false)
    (hstep : settleInTransaction db now rates i force = .ok (db', suspended)) :
    HourlyInv db' := by
  unfold settleInTransaction at hstep
  unfold halfCharge at hhalf
  cases haccount : db.hourlyAccount i with
  | none =>
    rw [haccount] at hstep
    obtain ⟨rfl, -⟩ := Prod.mk.inj (Except.ok.inj hstep)
    exact h
  | some account =>
    cases hinst : db.instances i with
    | none =>
      rw [haccount, hinst] at hstep
      obtain ⟨rfl, -⟩ := Prod.mk.inj (Except.ok.inj hstep)
      exact h
    | some inst =>
      have hkept := h.accounts account (Keyed.mem_of_lookup haccount).1
      simp only [haccount, hinst] at hstep hhalf
      by_cases hactive : account.status = .active
      · rw [if_neg (not_not.mpr hactive)] at hstep
        by_cases hrun : (!force && inst.status != .running) = true
        · -- the instance has stopped: the account is paused as it is
          rw [if_pos hrun] at hstep
          obtain ⟨rfl, -⟩ := Prod.mk.inj (Except.ok.inj hstep)
          refine h.rewrite hinst haccount (fun _ => rfl) rfl rfl ?_
          exact ⟨⟨hkept.balanced.conserved, hkept.balanced.prepaid, hkept.balanced.outstanding,
            fun hs => (by cases hs), fun hs => (by cases hs)⟩, hkept.owed, hkept.cost⟩
        · rw [if_neg hrun] at hstep
          have hforce : force = true ∨ inst.status = .running := by
            cases force with
            | true => exact .inl rfl
            | false => exact .inr (by simpa using hrun)
          rw [if_pos ⟨hactive, hforce⟩] at hhalf
          cases hpricing : rates.getAccountPricing with
          | error message =>
            rw [hpricing] at hstep
            cases hstep
          | ok pricing =>
            simp only [hpricing] at hstep hhalf
            cases hamount : hourlyCharge rates.resources pricing
                (activeSeconds account.lastSettledAt now) with
            | error message =>
              rw [hamount] at hstep
              cases hstep
            | ok x =>
              simp only [hamount] at hstep hhalf
              split at hstep
              · cases hstep
              · cases hstep
              · rename_i additional user hadditional huser
                have hdb : (chargeHourly db now account inst user
                    (activeSeconds account.lastSettledAt now) x additional).1 = db' :=
                  congrArg Prod.fst (Except.ok.inj hstep)
                rw [← hdb]
                refine h.charge hinst haccount hactive huser now _ (hourlyCharge_nonneg hamount)
                  fun hcovered hfract => ?_
                -- it is paid in full, so that the guard has excluded it
                rw [decide_eq_true hfract, Bool.true_and, Bool.or_eq_false_iff,
                  decide_eq_false_iff_not] at hhalf
                obtain ⟨hshort, hlacks⟩ := hhalf
                rcases reserved_cases db inst.userId i additional user.balance with ⟨-, h0⟩ | hfull
                · rw [h0, add_zero] at hcovered
                  exact hshort hcovered
                · rw [if_pos (not_le.mp hshort)] at hadditional
                  simp only [hadditional, huser, decide_eq_false_iff_not] at hlacks
                  rw [huser, Option.any_some, decide_eq_true_eq] at hfull
                  exact hlacks hfull.2
      · rw [if_pos hactive] at hstep
        obtain ⟨rfl, -⟩ := Prod.mk.inj (Except.ok.inj hstep)
        exact h

/-- A last settlement and a release keep the ledgers. -/
theorem HourlyInv.ends {now : Time} {rates : HourlyRates} {suspended : Bool}
    {status : HourlyBillingStatus} (h : HourlyInv db) (hstatus : status ≠ .active)
    (hhalf : halfCharge db i now rates true = false)
    (hstep : endHourlyBilling status db now rates i = .ok (db', suspended)) : HourlyInv db' := by
  unfold endHourlyBilling at hstep
  cases hsettle : settleInTransaction db now rates i true with
  | error message =>
    rw [hsettle] at hstep
    cases hstep
  | ok settled =>
    obtain ⟨db₁, suspended₁⟩ := settled
    have h₁ := h.settle hhalf hsettle
    rw [hsettle] at hstep
    dsimp only at hstep
    cases haccount : db₁.hourlyAccount i with
    | none =>
      rw [haccount] at hstep
      obtain ⟨rfl, -⟩ := Prod.mk.inj (Except.ok.inj hstep)
      exact h₁
    | some account =>
      cases hinst : db₁.instances i with
      | none =>
        rw [haccount, hinst] at hstep
        obtain ⟨rfl, -⟩ := Prod.mk.inj (Except.ok.inj hstep)
        exact h₁
      | some inst =>
        have hkept := h₁.accounts account (Keyed.mem_of_lookup haccount).1
        simp only [haccount, hinst] at hstep
        by_cases hclosed : account.status = .closed
        · rw [if_pos hclosed] at hstep
          obtain ⟨rfl, -⟩ := Prod.mk.inj (Except.ok.inj hstep)
          exact h₁
        · rw [if_neg hclosed] at hstep
          by_cases hprepaid : 0 < account.prepaidBalance
          · rw [if_pos hprepaid] at hstep
            cases huser : db₁.users inst.userId with
            | none =>
              rw [huser] at hstep
              cases hstep
            | some user =>
              simp only [huser] at hstep
              obtain ⟨rfl, -⟩ := Prod.mk.inj (Except.ok.inj hstep)
              exact h₁.release hinst haccount huser _ (fun _ => rfl) rfl rfl
                (hkept.ofNothingPrepaid rfl rfl rfl rfl rfl fun hs => absurd hs hstatus)
          · have hzero : account.prepaidBalance = 0 :=
              le_antisymm (not_lt.mp hprepaid) hkept.balanced.prepaid
            rw [if_neg hprepaid] at hstep
            obtain ⟨rfl, -⟩ := Prod.mk.inj (Except.ok.inj hstep)
            exact h₁.rewrite hinst haccount (fun _ => rfl) hzero.symm rfl
              (hkept.ofNothingPrepaid rfl rfl rfl rfl rfl fun hs => absurd hs hstatus)

/-- An account with nothing prepaid is suspended. -/
theorem HourlyInv.suspend (h : HourlyInv db) (hinst : db.instances i = some inst)
    (haccount : db.hourlyAccount i = some account) (hzero : account.prepaidBalance = 0) :
    HourlyInv (suspendAccount db i) := by
  have hkept := h.accounts account (Keyed.mem_of_lookup haccount).1
  have hsuspended : HourlyInv (db.updateHourly i fun a =>
      { a with status := .suspended, nextSettlementAt := none }) := by
    refine h.rewrite hinst haccount (fun _ => rfl) rfl rfl
      (hkept.ofNothingPrepaid rfl hzero ?_ rfl rfl fun hs => ?_)
    · rw [hzero]
      exact (Int.add_zero _).symm
    · cases hs
  exact hsuspended.same (HourlyShift.suspendHourly (u := inst.userId) [.running, .stopped]) rfl

/-- Starting keeps the ledgers: what is frozen first is prepaid. -/
theorem HourlyInv.activate {now : Time} {rates : HourlyRates} {active : Bool} (h : HourlyInv db)
    (hstep : activateHourlyBilling db now rates i = .ok (db', active)) : HourlyInv db' := by
  unfold activateHourlyBilling at hstep
  cases haccount : db.hourlyAccount i with
  | none =>
    rw [haccount] at hstep
    obtain ⟨rfl, -⟩ := Prod.mk.inj (Except.ok.inj hstep)
    exact h
  | some account =>
    cases hinst : db.instances i with
    | none =>
      rw [haccount, hinst] at hstep
      obtain ⟨rfl, -⟩ := Prod.mk.inj (Except.ok.inj hstep)
      exact h
    | some inst =>
      have hkept := h.accounts account (Keyed.mem_of_lookup haccount).1
      simp only [haccount, hinst] at hstep
      cases hstatus : account.status with
      | active =>
        rw [hstatus] at hstep
        obtain ⟨rfl, -⟩ := Prod.mk.inj (Except.ok.inj hstep)
        exact h
      | suspended =>
        rw [hstatus] at hstep
        obtain ⟨rfl, -⟩ := Prod.mk.inj (Except.ok.inj hstep)
        exact h.same (HourlyShift.suspendHourly (u := inst.userId) [.running, .stopped]) rfl
      | closed =>
        rw [hstatus] at hstep
        obtain ⟨rfl, -⟩ := Prod.mk.inj (Except.ok.inj hstep)
        exact h
      | paused =>
        simp only [hstatus] at hstep
        by_cases howes : 0 < account.outstanding
        · rw [if_pos howes] at hstep
          obtain ⟨rfl, -⟩ := Prod.mk.inj (Except.ok.inj hstep)
          exact h.suspend hinst haccount (hkept.owed howes)
        · have hnothing : account.outstanding = 0 :=
            le_antisymm (not_lt.mp howes) hkept.balanced.outstanding
          have hconserved := hkept.balanced.conserved
          rw [if_neg howes] at hstep
          -- the account, with what has been added to it
          have hactivated : ∀ {db₁ : Db} {r : Units},
              HourlyShift i inst.userId r 0 db db₁ → 0 ≤ r → HourlyInv (db₁.updateHourly i fun a =>
                { a with
                    status := .active, lastSettledAt := now
                    nextSettlementAt := some (now + settlementIntervalMs)
                    prepaidBalance := a.prepaidBalance + r
                    totalReserved := a.totalReserved + r }) := by
            intro db₁ r hshift hr
            refine h.move hinst haccount hshift (fun _ => rfl) rfl (add_zero _).symm
              ⟨⟨?_, Int.add_nonneg hkept.balanced.prepaid hr, hkept.balanced.outstanding,
                fun _ => hnothing, fun hs => by cases hs⟩, fun hs => absurd hs howes, hkept.cost⟩
            show account.totalReserved + r = account.prepaidBalance + r + account.totalReleased +
              (account.totalCost - account.outstanding)
            rw [hconserved]
            ring
          by_cases hempty : account.prepaidBalance ≤ 0
          · rw [if_pos hempty] at hstep
            have hzero : account.prepaidBalance = 0 := le_antisymm hempty hkept.balanced.prepaid
            cases huser : db.users inst.userId with
            | none =>
              rw [huser] at hstep
              cases hstep
            | some user =>
              cases hpricing : rates.getAccountPricing with
              | error message =>
                rw [huser, hpricing] at hstep
                cases hstep
              | ok pricing =>
                simp only [huser, hpricing] at hstep
                obtain ⟨hshift, hr, -⟩ :=
                  HourlyShift.reserve (i := i) huser pricing.reserveQuantum user.balance
                have hcases :=
                  reserved_cases db inst.userId i pricing.reserveQuantum user.balance
                generalize reserveForHourlyCharge db inst.userId i pricing.reserveQuantum
                  user.balance = result at *
                obtain ⟨db₁, r, balanceAfter⟩ := result
                dsimp only at *
                by_cases hlacks : r < pricing.reserveQuantum
                · rw [if_pos hlacks] at hstep
                  obtain ⟨rfl, -⟩ := Prod.mk.inj (Except.ok.inj hstep)
                  rcases hcases with ⟨rfl, -⟩ | ⟨hfull, -⟩
                  · exact h.suspend hinst haccount hzero
                  · exact absurd hlacks (hfull ▸ lt_irrefl _)
                · rw [if_neg hlacks] at hstep
                  obtain ⟨rfl, -⟩ := Prod.mk.inj (Except.ok.inj hstep)
                  exact hactivated hshift hr
          · rw [if_neg hempty] at hstep
            obtain ⟨rfl, -⟩ := Prod.mk.inj (Except.ok.inj hstep)
            exact hactivated (HourlyShift.refl db) le_rfl

theorem le_ceilToQuantum {amount : ℚ} {quantum c : Units}
    (h : ceilToQuantum amount quantum = .ok c) : 0 < quantum ∧ 0 ≤ c ∧ amount ≤ c := by
  unfold ceilToQuantum at h
  by_cases hquantum : quantum ≤ 0
  · rw [if_pos hquantum] at h
    cases h
  · have hpos : 0 < quantum := not_le.mp hquantum
    rw [if_neg hquantum] at h
    refine ⟨hpos, ?_⟩
    by_cases hamount : amount ≤ 0
    · rw [if_pos hamount] at h
      obtain rfl := Except.ok.inj h
      exact ⟨le_rfl, by simpa using hamount⟩
    · have hpos' : (0 : ℚ) < quantum := by exact_mod_cast hpos
      rw [if_neg hamount] at h
      obtain rfl := Except.ok.inj h
      have hceil : amount / quantum ≤ (⌈amount / quantum⌉ : ℚ) := Int.le_ceil _
      have h0 : 0 ≤ ⌈amount / quantum⌉ :=
        Int.ceil_nonneg (div_nonneg (not_le.mp hamount).le hpos'.le)
      refine ⟨Int.mul_nonneg h0 hpos.le, ?_⟩
      push_cast
      exact (div_le_iff₀ hpos').mp hceil

/-- Resuming keeps the ledgers: the account owed and had nothing prepaid. -/
theorem HourlyInv.resume {now : Time} {rates : HourlyRates} {userId : ℕ} (h : HourlyInv db)
    (hstep : resumeHourlyBilling db now rates i userId = .ok db') : HourlyInv db' := by
  unfold resumeHourlyBilling at hstep
  cases haccount : db.hourlyAccount i with
  | none =>
    rw [haccount] at hstep
    cases hstep
  | some account =>
    cases hinst : db.instances i with
    | none =>
      rw [haccount, hinst] at hstep
      cases hstep
    | some inst =>
      have hkept := h.accounts account (Keyed.mem_of_lookup haccount).1
      simp only [haccount, hinst] at hstep
      by_cases hother : inst.userId ≠ userId
      · rw [if_pos hother] at hstep
        cases hstep
      obtain rfl := not_not.mp hother
      rw [if_neg hother] at hstep
      by_cases hstatus : account.status ≠ .suspended
      · rw [if_pos hstatus] at hstep
        exact Except.ok.inj hstep ▸ h
      have hsuspended := not_not.mp hstatus
      rw [if_neg hstatus] at hstep
      cases hpricing : rates.getAccountPricing with
      | error message =>
        rw [hpricing] at hstep
        cases hstep
      | ok pricing =>
        simp only [hpricing] at hstep
        split at hstep
        · cases hstep
        · cases hstep
        · rename_i reserveAmount user hceil huser
          obtain ⟨hshift, -, hfrozen⟩ :=
            HourlyShift.reserve (i := i) huser reserveAmount user.balance
          have hcases := reserved_cases db inst.userId i reserveAmount user.balance
          generalize reserveForHourlyCharge db inst.userId i reserveAmount user.balance =
            result at *
          obtain ⟨db₁, r, balanceAfter⟩ := result
          dsimp only at *
          by_cases hlacks : r < reserveAmount
          · rw [if_pos hlacks] at hstep
            cases hstep
          · rw [if_neg hlacks] at hstep
            obtain rfl := Except.ok.inj hstep
            obtain ⟨hquantum, hnonneg, hreaches⟩ := le_ceilToQuantum hceil
            have houtstanding := hkept.balanced.outstanding
            have hle : account.outstanding ≤ reserveAmount := by
              have hcast : account.outstanding + pricing.reserveQuantum ≤ reserveAmount := by
                exact_mod_cast hreaches
              linarith
            have hr : r = reserveAmount := by
              rcases hcases with ⟨-, h0⟩ | ⟨hfull, -⟩
              · exact le_antisymm (h0 ▸ hnonneg) (not_lt.mp hlacks)
              · exact hfull
            subst hr
            have hzero : account.prepaidBalance = 0 := hkept.balanced.suspended hsuspended
            have hconserved := hkept.balanced.conserved
            rw [hzero] at hconserved
            -- what was owed is paid out of what is frozen now
            have hboth := hshift.trans (HourlyShift.repay (i := i) now hfrozen houtstanding
              { id := 0, userId := inst.userId, type := .hourlyConsume
                amount := account.outstanding, balanceBefore := balanceAfter, balanceAfter
                instanceId := some i })
            rw [zero_add] at hboth
            refine h.move hinst haccount hboth (fun _ => rfl) ?_ ?_
              ⟨⟨?_, Int.sub_nonneg_of_le hle, le_rfl, fun hs => (by cases hs),
                fun hs => (by cases hs)⟩, fun hs => absurd hs (lt_irrefl _), hkept.cost⟩
            · show r - account.outstanding = _
              rw [hzero]
              ring
            · show account.totalCost - 0 = _
              ring
            · show account.totalReserved + r = r - account.outstanding + account.totalReleased +
                (account.totalCost - 0)
              rw [hconserved]
              ring

/-- A failed provision releases what is prepaid. -/
theorem HourlyInv.failProvision {e : Env} {refund : Option Units} (h : HourlyInv db)
    (hinst : db.instances i = some inst) (hhourly : inst.billingMode = .hourly)
    (hstep : failCreatingInstanceAndRefund db e i = .ok (db', refund)) : HourlyInv db' := by
  unfold failCreatingInstanceAndRefund at hstep
  simp only [hinst] at hstep
  by_cases hclaimed : ¬(inst.status = .creating ∧ inst.provisioningCleanupPending = true)
  · rw [if_pos hclaimed] at hstep
    obtain ⟨rfl, -⟩ := Prod.mk.inj (Except.ok.inj hstep)
    exact h
  · rw [if_neg hclaimed, hhourly] at hstep
    dsimp only at hstep
    have hinst' : (db.updateInstance i fun i =>
        { i with
            status := .error, provisioningCleanupPending := false
            version := i.version + 1 }).instances i =
        some { inst with
          status := .error, provisioningCleanupPending := false, version := inst.version + 1 } := by
      show Function.update _ i _ i = _
      rw [Function.update_self, hinst]
      rfl
    have hfailed := h.same (HourlyShift.updateInstance (i := i) (u := inst.userId) i
      (f := fun i : Instance =>
        { i with
            status := .error, provisioningCleanupPending := false, version := i.version + 1 })
      fun _ => ⟨rfl, rfl⟩) rfl
    generalize (db.updateInstance i fun i =>
      { i with status := .error, provisioningCleanupPending := false, version := i.version + 1 }) =
        db₁ at hstep hfailed hinst'
    unfold releaseFailedHourly at hstep
    cases haccount : Keyed.lookup HourlyBillingAccount.instanceId i db₁.hourlyAccounts with
    | none =>
      rw [haccount] at hstep
      obtain ⟨rfl, -⟩ := Prod.mk.inj (Except.ok.inj hstep)
      exact hfailed
    | some account =>
      have hkept := hfailed.accounts account (Keyed.mem_of_lookup haccount).1
      simp only [haccount] at hstep
      by_cases hprepaid : 0 < account.prepaidBalance
      · rw [if_pos hprepaid] at hstep
        cases huser : db₁.users inst.userId with
        | none =>
          rw [huser] at hstep
          cases hstep
        | some user =>
          simp only [huser] at hstep
          obtain ⟨rfl, -⟩ := Prod.mk.inj (Except.ok.inj hstep)
          exact hfailed.release hinst' haccount huser _ (fun _ => rfl) rfl rfl
            (hkept.ofNothingPrepaid rfl rfl rfl rfl rfl fun hs => by cases hs)
      · have hzero : account.prepaidBalance = 0 :=
          le_antisymm (not_lt.mp hprepaid) hkept.balanced.prepaid
        rw [if_neg hprepaid] at hstep
        obtain ⟨rfl, -⟩ := Prod.mk.inj (Except.ok.inj hstep)
        refine hfailed.rewrite hinst' haccount (fun _ => rfl) rfl rfl
          (hkept.ofNothingPrepaid rfl hzero ?_ rfl rfl fun hs => by cases hs)
        rw [hzero]
        exact (Int.add_zero _).symm

/-- A new instance has no account and has earned nothing yet. -/
theorem HourlyInv.setInstance (h : HourlyInv db) (hnew : db.instances i = none)
    (inst : Instance) : HourlyInv (db.setInstance i inst) ∧
      (∀ a ∈ db.hourlyAccounts, a.instanceId ≠ i) ∧
      ∀ l ∈ db.hostingLogs, l.relatedId ≠ some i := by
  have haccounts : ∀ a ∈ db.hourlyAccounts, a.instanceId ≠ i := by
    intro a ha hid
    have hthere := h.instances a ha
    rw [hid, hnew] at hthere
    cases hthere
  have hlogs : ∀ l ∈ db.hostingLogs, l.relatedId ≠ some i := by
    intro l hl hid
    have hthere := h.logs l hl i hid
    rw [hnew] at hthere
    cases hthere
  have hother : ∀ {j : ℕ}, j ≠ i → (db.setInstance i inst).instances j = db.instances j :=
    fun hj => Function.update_of_ne hj _ _
  have hthere : ∀ {j : ℕ}, (db.instances j).isSome = true →
      ((db.setInstance i inst).instances j).isSome = true := by
    intro j hj
    by_cases hji : j = i
    · rw [hji, hnew] at hj
      cases hj
    · rwa [hother hji]
  refine ⟨⟨h.keys, fun v user huser => ?_, h.balance, h.accounts, fun a ha howner => ?_,
    fun a ha => hthere (h.instances a ha), fun l hl j hj => hthere (h.logs l hl j hj)⟩,
    haccounts, hlogs⟩
  · rw [h.reserved v user huser]
    exact Keyed.total_congr fun a ha => by rw [hother (haccounts a ha)]
  · have howner' : hourlyIncomeOwner (db.setInstance i inst) a.instanceId =
        hourlyIncomeOwner db a.instanceId := by
      unfold hourlyIncomeOwner
      rw [hother (haccounts a ha)]
      rfl
    exact h.income a ha (howner' ▸ howner)

/-- An account that has paid for nothing is opened, with what is frozen for it. -/
theorem HourlyInv.append (h : HourlyInv db) (hinst : db.instances i = some inst)
    (hnew : ∀ a ∈ db.hourlyAccounts, a.instanceId ≠ i)
    (hlogs : ∀ l ∈ db.hostingLogs, l.relatedId ≠ some i)
    (hshift : HourlyShift i inst.userId account.prepaidBalance 0 db db')
    (hid : account.instanceId = i) (hkept : account.Kept)
    (hcost : account.totalCost - account.outstanding = 0) :
    HourlyInv { db' with hourlyAccounts := db'.hourlyAccounts ++ [account] } := by
  have hcases : ∀ a ∈ db'.hourlyAccounts ++ [account], a ∈ db.hourlyAccounts ∨ a = account := by
    intro a ha
    rw [hshift.accounts] at ha
    exact (List.mem_append.mp ha).imp_right List.mem_singleton.mp
  refine ⟨?_, fun v user' huser' => ?_, fun v user' huser' => ?_, fun a ha => ?_,
    fun a ha howner => ?_, fun a ha => ?_, fun l hl j hj => ?_⟩
  · show ((db'.hourlyAccounts ++ [account]).map _).Nodup
    rw [hshift.accounts]
    exact Keyed.nodup_append_singleton h.keys fun a ha => hid ▸ hnew a ha
  · obtain ⟨user, huser, hreserved, -⟩ := hshift.users v user' huser'
    rw [hreserved, h.reserved v user huser]
    show _ = Keyed.total _ (db'.hourlyAccounts ++ [account])
    rw [hshift.accounts, Keyed.total_append, Keyed.total_cons, Keyed.total_nil, add_zero,
      hshift.isUser, hid, hinst, Option.any_some]
    have hold : hourlyPrepaidOf db v = Keyed.total (fun a : HourlyBillingAccount =>
        if (db'.instances a.instanceId).any (·.userId == v) then a.prepaidBalance else 0)
        db.hourlyAccounts :=
      Keyed.total_congr fun a _ => by rw [hshift.isUser]
    have hsame : (v = inst.userId) = ((inst.userId == v) = true) :=
      propext (eq_comm.trans beq_iff_eq.symm)
    rw [hold]
    simp only [hsame]
  · obtain ⟨user, huser, -, hbalance⟩ := hshift.users v user' huser'
    exact hbalance (h.balance v user huser)
  · rcases hcases a ha with hold | rfl
    · exact h.accounts a hold
    · exact hkept
  · have howner' : (hourlyIncomeOwner db a.instanceId).isSome = true :=
      (hshift.owner a.instanceId) ▸ howner
    show hourlyIncomeOf db' a.instanceId = _
    rcases hcases a ha with hold | rfl
    · rw [hshift.earns_of_ne (hnew a hold)]
      exact h.income a hold howner'
    · have hnothing : hourlyIncomeOf db i = 0 := by
        unfold hourlyIncomeOf
        rw [List.filter_eq_nil_iff.mpr fun l hl => by simp [hlogs l hl], Keyed.total_nil]
      rw [hid] at howner' ⊢
      rw [hshift.earns howner', hnothing, hcost, add_zero]
  · show (db'.instances a.instanceId).isSome = true
    rw [hshift.isThere]
    rcases hcases a ha with hold | rfl
    · exact h.instances a hold
    · rw [hid, hinst]
      rfl
  · exact hshift.keepsLogs h.logs hinst l hl j hj

/-- A purchase opens an account with a first quantum. -/
theorem HourlyInv.opened {now : Time} {pricing : HourlyPricing} (h : HourlyInv db)
    (hinst : db.instances i = some inst) (hnew : ∀ a ∈ db.hourlyAccounts, a.instanceId ≠ i)
    (hlogs : ∀ l ∈ db.hostingLogs, l.relatedId ≠ some i)
    (hstep : openHourlyAccount db now pricing i inst.userId = .ok db') : HourlyInv db' := by
  unfold openHourlyAccount at hstep
  cases huser : db.users inst.userId with
  | none =>
    rw [huser] at hstep
    cases hstep
  | some user =>
    simp only [huser] at hstep
    by_cases hlacks : user.balance < pricing.reserveQuantum
    · rw [if_pos hlacks] at hstep
      cases hstep
    · rw [if_neg hlacks] at hstep
      obtain rfl := Except.ok.inj hstep
      generalize hdb : ((db.updateUser inst.userId fun u =>
        { u with
            balance := u.balance - pricing.reserveQuantum
            hourlyReservedBalance := u.hourlyReservedBalance + pricing.reserveQuantum
          }).createBalanceLog
        { id := 0, userId := inst.userId, type := .hourlyReserve
          amount := -pricing.reserveQuantum, balanceBefore := user.balance
          balanceAfter := user.balance - pricing.reserveQuantum, instanceId := some i }).1 = db₁
      have hshift : HourlyShift i inst.userId pricing.reserveQuantum 0 db db₁ :=
        hdb ▸ HourlyShift.andSame
          (.updateUser user huser rfl rfl fun _ => Int.sub_nonneg_of_le (not_lt.mp hlacks))
          (.of_eq rfl rfl rfl rfl rfl)
      have hquantum : (0 : Units) ≤ pricing.reserveQuantum := Int.natCast_nonneg _
      refine h.append hinst hnew hlogs hshift rfl ⟨⟨?_, hquantum, le_rfl, fun _ => rfl,
        fun hs => by cases hs⟩, fun hs => absurd hs (lt_irrefl _), le_rfl⟩ rfl
      show (pricing.reserveQuantum : Units) = pricing.reserveQuantum + 0 + (0 - 0)
      ring

/-! ## Every run -/

theorem HourlyStart.inv (h : HourlyStart db) : HourlyInv db := by
  have hnone : ∀ a : HourlyBillingAccount, a ∉ db.hourlyAccounts := by
    intro a ha
    rw [h.accounts] at ha
    cases ha
  refine ⟨?_, fun v user huser => ?_, fun v user huser => (h.users v user huser).2,
    fun a ha => absurd ha (hnone a), fun a ha => absurd ha (hnone a),
    fun a ha => absurd ha (hnone a), h.income⟩
  · rw [h.accounts]
    exact List.nodup_nil
  · rw [(h.users v user huser).1, hourlyPrepaidOf, h.accounts]
    rfl

/-- Each operation keeps the ledgers, if it does not charge half a unit. -/
theorem HourlyInv.step {event : HourlyEvent} (h : HourlyInv db)
    (hok : noHalfCharge db event = true) (hstep : hourlyStep db event = some db') :
    HourlyInv db' := by
  cases event with
  | «open» instanceId inst pricing now =>
    simp only [hourlyStep] at hstep
    split at hstep
    · rename_i hnew
      rw [Bool.and_eq_true, Option.isNone_iff_eq_none] at hnew
      obtain ⟨h₁, haccounts, hlogs⟩ := h.setInstance hnew.1 inst
      exact h₁.opened (Function.update_self ..) haccounts hlogs (toOption_eq_some hstep)
    · cases hstep
  | settle instanceId now rates force =>
    obtain ⟨⟨db₁, suspended⟩, hsettle, rfl⟩ := Option.map_eq_some_iff.mp hstep
    exact h.settle (by simpa [noHalfCharge] using hok) (toOption_eq_some hsettle)
  | activate instanceId now rates =>
    obtain ⟨⟨db₁, active⟩, hactivate, rfl⟩ := Option.map_eq_some_iff.mp hstep
    exact h.activate (toOption_eq_some hactivate)
  | pause instanceId now rates =>
    obtain ⟨⟨db₁, suspended⟩, hpause, rfl⟩ := Option.map_eq_some_iff.mp hstep
    exact h.ends (by decide) (by simpa [noHalfCharge] using hok) (toOption_eq_some hpause)
  | resume instanceId userId now rates => exact h.resume (toOption_eq_some hstep)
  | close instanceId now rates =>
    obtain ⟨⟨db₁, suspended⟩, hclose, rfl⟩ := Option.map_eq_some_iff.mp hstep
    exact h.ends (by decide) (by simpa [noHalfCharge] using hok) (toOption_eq_some hclose)
  | claimForCleanup instanceId reclaim =>
    obtain rfl := Option.some.inj hstep
    unfold claimCreatingInstanceForCleanup
    split
    · exact h
    · split
      · exact h.same (HourlyShift.updateInstance (i := instanceId) (u := 0) instanceId
          fun _ => ⟨rfl, rfl⟩) rfl
      · exact h
  | failProvision instanceId now =>
    simp only [hourlyStep] at hstep
    split at hstep
    · rename_i hhourly
      obtain ⟨⟨db₁, refund⟩, hfail, rfl⟩ := Option.map_eq_some_iff.mp hstep
      cases hinst : db.instances instanceId with
      | none =>
        rw [hinst] at hhourly
        cases hhourly
      | some inst =>
        rw [hinst, Option.any_some, beq_iff_eq] at hhourly
        exact h.failProvision hinst hhourly (toOption_eq_some hfail)
    · cases hstep
  | setStatus instanceId status =>
    obtain rfl := Option.some.inj hstep
    exact h.same (HourlyShift.updateInstance (i := instanceId) (u := 0) instanceId
      fun _ => ⟨rfl, rfl⟩) rfl
  | setBalance userId balance =>
    obtain rfl := Option.some.inj hstep
    cases huser : db.users userId with
    | none =>
      unfold Db.updateUser
      rw [huser, Option.map_none, ← huser, Function.update_eq_self]
      exact h
    | some user =>
      exact h.same (HourlyShift.updateUser (i := 0) user huser rfl (add_zero _).symm
        fun _ => Int.natCast_nonneg _) rfl

end Invariant

/-! ### Runs -/

def hourlyLedgerPricing : HourlyPricing where
  cpuUnitPercent := 100
  memoryUnitMb := 128
  diskUnitMb := 1024
  minCpu := 100
  minMemoryMb := 128
  minDiskMb := 1024
  cpuPricePerUnit := 120000
  memoryPricePerUnit := 90000
  diskPricePerUnit := 210060
  reserveQuantum := 1000000

/-- With three cores an hour costs 750060 units, and ten seconds 2083.5. -/
def hourlyLedgerRates (cpu : ℕ) : HourlyRates where
  resources := { cpu, memory := 256, disk := 1024 }
  pricing := some hourlyLedgerPricing

/-- The host of user 1; user 2 has 0.03 yuan. -/
def hourlyLedgerDb : Db where
  users := fun
    | 1 => some {}
    | 2 => some { balance := 3000000 }
    | _ => none
  hosts := fun
    | 1 => some { userId := 1 }
    | _ => none
  instances := fun _ => none

theorem hourlyLedgerDb_start : HourlyStart hourlyLedgerDb where
  accounts := rfl
  users := by
    intro userId user huser
    have hrows : ∀ user, hourlyLedgerDb.users userId = some user →
        user = {} ∨ user = { balance := 3000000 } := by
      intro user huser
      unfold hourlyLedgerDb at huser
      dsimp only at huser
      split at huser
      · exact .inl (Option.some.inj huser).symm
      · exact .inr (Option.some.inj huser).symm
      · cases huser
    rcases hrows user huser with rfl | rfl
    · exact ⟨rfl, le_rfl⟩
    · exact ⟨rfl, by decide⟩
  income := by
    intro l hl
    cases hl

end Incudal
