/-
# `HourlyBilling` — instances that are paid by the hour

An hourly instance has an account with a prepaid balance, which stands in the
user's frozen balance as well.  A settlement charges the seconds since the last
one against it, freezes more of the user's balance when it does not reach, and
suspends the account when the balance does not reach either; what is not paid
is outstanding then, until the user resumes.

A charge is computed to more decimals than the columns have, and is written to
several of them.  `toColumn` is the rounding that each write makes.
-/
import Incudal.Settlement

namespace Incudal

/-! ## Prices -/

/-- `HourlyPricingLike`, with prices in units. -/
structure HourlyPricing where
  cpuUnitPercent : ℕ
  memoryUnitMb : ℕ
  diskUnitMb : ℕ
  minCpu : ℕ
  minMemoryMb : ℕ
  minDiskMb : ℕ
  cpuPricePerUnit : ℕ
  memoryPricePerUnit : ℕ
  diskPricePerUnit : ℕ
  reserveQuantum : ℕ
deriving DecidableEq, Repr

structure HourlyResources where
  cpu : ℕ
  memory : ℕ
  disk : ℕ
deriving DecidableEq, Repr

/-- What an operation reads of the instance and of the plan, or of the pricing
version, that the account goes by. -/
structure HourlyRates where
  resources : HourlyResources
  pricing : Option HourlyPricing
deriving DecidableEq, Repr

/-- `getAccountPricing`. -/
def HourlyRates.getAccountPricing (rates : HourlyRates) : Except String HourlyPricing :=
  match rates.pricing with
  | none => .error "HOURLY_PRICING_MISSING"
  | some pricing => .ok pricing

/-- `assertResource`: the message when it throws. -/
def assertResource (value min step : ℕ) (label : String) : Option String :=
  if value < min then some s!"{label} must be at least {min}"
  else if step = 0 ∨ (value - min) % step ≠ 0 then
    some s!"{label} must increase in steps of {step} from {min}"
  else none

/-- `validateHourlyResources`: the message when it throws. -/
def validateHourlyResources (r : HourlyResources) (pricing : HourlyPricing) : Option String :=
  assertResource r.cpu pricing.minCpu pricing.cpuUnitPercent "CPU"
  <|> assertResource r.memory pricing.minMemoryMb pricing.memoryUnitMb "Memory"
  <|> assertResource r.disk pricing.minDiskMb pricing.diskUnitMb "Disk"
  <|> (if 10000 < r.cpu then some "CPU is too large" else none)
  <|> (if 524288 < r.memory then some "Memory is too large" else none)
  <|> (if 104857600 < r.disk then some "Disk is too large" else none)

/-- The amounts of an hour in `calculateHourlyBreakdown`. -/
structure HourlyBreakdown where
  cpuAmount : ℚ
  memoryAmount : ℚ
  diskAmount : ℚ
deriving DecidableEq, Repr

/-- `calculateHourlyBreakdown`. -/
def calculateHourlyBreakdown (r : HourlyResources) (pricing : HourlyPricing) :
    Except String HourlyBreakdown :=
  match validateHourlyResources r pricing with
  | some message => .error message
  | none =>
      .ok
        { cpuAmount := (r.cpu : ℚ) / pricing.cpuUnitPercent * pricing.cpuPricePerUnit
          memoryAmount := (r.memory : ℚ) / pricing.memoryUnitMb * pricing.memoryPricePerUnit
          diskAmount := (r.disk : ℚ) / pricing.diskUnitMb * pricing.diskPricePerUnit }

/-- `calculateHourlyCost`. -/
def calculateHourlyCost (hourlyPrice : ℚ) (activeSeconds : ℕ) : ℚ :=
  hourlyPrice * activeSeconds / 3600

/-- `ceilToQuantum`. -/
def ceilToQuantum (amount : ℚ) (quantum : Units) : Except String Units :=
  if quantum ≤ 0 then .error "reserveQuantum must be greater than zero"
  else if amount ≤ 0 then .ok 0
  else .ok (⌈amount / quantum⌉ * quantum)

/-- The whole seconds of a period. -/
def activeSeconds (periodStart now : Time) : ℕ := ((now - periodStart) / 1000).toNat

/-- The charge for some seconds: its three parts are computed one by one. -/
def hourlyCharge (r : HourlyResources) (pricing : HourlyPricing) (seconds : ℕ) :
    Except String ℚ :=
  match calculateHourlyBreakdown r pricing with
  | .error message => .error message
  | .ok breakdown =>
      .ok (calculateHourlyCost breakdown.cpuAmount seconds
        + calculateHourlyCost breakdown.memoryAmount seconds
        + calculateHourlyCost breakdown.diskAmount seconds)

/-- A value that is written to a column with eight decimals. -/
def toColumn (value : ℚ) : Units := Rounding.halfAway value

/-! ## Rows -/

/-- `SETTLEMENT_INTERVAL_MS`. -/
def settlementIntervalMs : Time := 5 * 60 * 1000

/-- `HOURLY_SUSPEND_REASON`. -/
def hourlySuspendReason : String := "hourly_billing_insufficient_balance"

/-- The account of an instance. -/
def Db.hourlyAccount (db : Db) (instanceId : ℕ) : Option HourlyBillingAccount :=
  Keyed.lookup HourlyBillingAccount.instanceId instanceId db.hourlyAccounts

/-- `hourlyBillingAccount.update`. -/
def Db.updateHourly (db : Db) (instanceId : ℕ) (f : HourlyBillingAccount → HourlyBillingAccount) :
    Db :=
  { db with
      hourlyAccounts :=
        Keyed.modify HourlyBillingAccount.instanceId instanceId
          (fun a => { f a with version := a.version + 1 }) db.hourlyAccounts }

/-- The instance is suspended if it has one of the statuses. -/
def Db.suspendHourly (db : Db) (instanceId : ℕ) (statuses : List InstanceStatus) : Db :=
  db.updateInstance instanceId fun inst =>
    if inst.status ∈ statuses then
      { inst with
          status := .suspended, suspendReason := some hourlySuspendReason
          version := inst.version + 1 }
    else inst

/-- Who earns from the hours of an instance: the owner of its host, unless an administrator. -/
def hourlyIncomeOwner (db : Db) (instanceId : ℕ) : Option ℕ :=
  match db.instances instanceId with
  | none => none
  | some inst =>
      match db.hosts inst.hostId with
      | none => none
      | some host =>
          match db.users host.userId with
          | none => none
          | some owner => if owner.role = .admin then none else some host.userId

/-- `createHourlyHostingIncome`: frozen for thirty days. -/
def createHourlyHostingIncome (db : Db) (now : Time) (instanceId : ℕ) (amount : ℚ) : Db :=
  if amount ≤ 0 then db
  else
    match hourlyIncomeOwner db instanceId with
    | none => db
    | some owner =>
        db.createHostingLog
          { id := 0, userId := owner, type := .income, amount := toColumn amount, frozen := true
            unfreezeAt := some (now + 30 * 24 * 60 * 60 * 1000), relatedId := some instanceId
            createdAt := now }

/-- `reserveForHourlyCharge`: what has been frozen, and the balance after it. -/
def reserveForHourlyCharge (db : Db) (userId instanceId : ℕ) (amount balance : Units) :
    Db × Units × Units :=
  if amount ≤ 0 then (db, 0, balance)
  else if !(db.users userId).any fun u => decide (amount ≤ u.balance) then (db, 0, balance)
  else
    let balanceAfter := balance - amount
    let db := db.updateUser userId fun u =>
      { u with
          balance := u.balance - amount, hourlyReservedBalance := u.hourlyReservedBalance + amount }
    let (db, _) := db.createBalanceLog
      { id := 0, userId, type := .hourlyReserve, amount := -amount, balanceBefore := balance
        balanceAfter, instanceId := some instanceId }
    (db, amount, balanceAfter)

/-! ## Settling -/

/-- The rest of a settlement, for a charge that has been computed: `additional`
is what the prepaid balance lacks, in whole quanta. -/
def chargeHourly (db : Db) (now : Time) (account : HourlyBillingAccount) (inst : Instance)
    (user : User) (seconds : ℕ) (actualAmount : ℚ) (additional : Units) : Db × Bool :=
  let instanceId := account.instanceId
  let (db, reserved, balanceAfter) :=
    reserveForHourlyCharge db inst.userId instanceId additional user.balance
  let combinedPrepaid := account.prepaidBalance + reserved
  let paidAmount := min (combinedPrepaid : ℚ) actualAmount
  let unpaidAmount := actualAmount - paidAmount
  let shouldRecord := 0 < seconds ∨ 0 < additional ∨ 0 < actualAmount
  let db :=
    if shouldRecord then
      (db.createBalanceLog
        { id := 0, userId := inst.userId, type := .hourlyConsume, amount := toColumn paidAmount
          balanceBefore := balanceAfter, balanceAfter, instanceId := some instanceId }).1
    else db
  let db :=
    if 0 < paidAmount then
      db.updateUser inst.userId fun u =>
        { u with hourlyReservedBalance := toColumn (u.hourlyReservedBalance - paidAmount) }
    else db
  let db := createHourlyHostingIncome db now instanceId paidAmount
  let suspended := decide (0 < unpaidAmount)
  let db := db.updateHourly instanceId fun a =>
    { a with
        -- what is left of a second stays for the next settlement
        lastSettledAt := account.lastSettledAt + seconds * 1000
        nextSettlementAt := if suspended then none else some (now + settlementIntervalMs)
        prepaidBalance := toColumn (combinedPrepaid - paidAmount)
        totalCost := toColumn (a.totalCost + actualAmount)
        totalReserved := a.totalReserved + reserved
        outstanding := toColumn (a.outstanding + unpaidAmount)
        status := if suspended then .suspended else .active }
  (if suspended then db.suspendHourly instanceId [.running] else db, suspended)

/-- `settleInTransaction`: whether the account is suspended now. -/
def settleInTransaction (db : Db) (now : Time) (rates : HourlyRates) (instanceId : ℕ)
    (force : Bool) : Except String (Db × Bool) :=
  match db.hourlyAccount instanceId, db.instances instanceId with
  | none, _ | _, none => .ok (db, false)
  | some account, some inst =>
      if account.status ≠ .active then .ok (db, account.status == .suspended)
      else if !force && inst.status != .running then
        .ok (db.updateHourly instanceId fun a =>
          { a with status := .paused, nextSettlementAt := none }, false)
      else
        match rates.getAccountPricing with
        | .error message => .error message
        | .ok pricing =>
            let seconds := activeSeconds account.lastSettledAt now
            match hourlyCharge rates.resources pricing seconds with
            | .error message => .error message
            | .ok actualAmount =>
                let requiredAdditional :=
                  if (account.prepaidBalance : ℚ) < actualAmount then
                    ceilToQuantum (actualAmount - account.prepaidBalance) pricing.reserveQuantum
                  else .ok 0
                match requiredAdditional, db.users inst.userId with
                | .error message, _ => .error message
                | .ok _, none => .error s!"Hourly billing user {inst.userId} not found"
                | .ok additional, some user =>
                    .ok (chargeHourly db now account inst user seconds actualAmount additional)

/-! ## Starting and resuming -/

/-- The account is suspended, and the instance with it. -/
def suspendAccount (db : Db) (instanceId : ℕ) : Db :=
  (db.updateHourly instanceId fun a =>
    { a with status := .suspended, nextSettlementAt := none }).suspendHourly instanceId
      [.running, .stopped]

/-- `activateHourlyBilling`. -/
def activateHourlyBilling (db : Db) (now : Time) (rates : HourlyRates) (instanceId : ℕ) :
    Except String (Db × Bool) :=
  match db.hourlyAccount instanceId, db.instances instanceId with
  | none, _ | _, none => .ok (db, false)
  | some account, some inst =>
      match account.status with
      | .active => .ok (db, inst.status == .running)
      | .suspended => .ok (db.suspendHourly instanceId [.running, .stopped], false)
      | .closed => .ok (db, false)
      | .paused =>
          if 0 < account.outstanding then .ok (suspendAccount db instanceId, false)
          else
            let activate (db : Db) (addedReserve : Units) : Db :=
              db.updateHourly instanceId fun a =>
                { a with
                    status := .active, lastSettledAt := now
                    nextSettlementAt := some (now + settlementIntervalMs)
                    prepaidBalance := a.prepaidBalance + addedReserve
                    totalReserved := a.totalReserved + addedReserve }
            if account.prepaidBalance ≤ 0 then
              match db.users inst.userId, rates.getAccountPricing with
              | none, _ => .error "USER_NOT_FOUND"
              | some _, .error message => .error message
              | some user, .ok pricing =>
                  let (db', reserved, _) := reserveForHourlyCharge db inst.userId instanceId
                    pricing.reserveQuantum user.balance
                  if reserved < pricing.reserveQuantum then .ok (suspendAccount db' instanceId, false)
                  else .ok (activate db' reserved, true)
            else .ok (activate db 0, true)

/-- `resumeHourlyBilling`. -/
def resumeHourlyBilling (db : Db) (now : Time) (rates : HourlyRates) (instanceId userId : ℕ) :
    Except String Db :=
  match db.hourlyAccount instanceId, db.instances instanceId with
  | none, _ | _, none => .error "HOURLY_ACCOUNT_NOT_FOUND"
  | some account, some inst =>
      if inst.userId ≠ userId then .error "HOURLY_ACCOUNT_NOT_FOUND"
      else if account.status ≠ .suspended then .ok db
      else
        match rates.getAccountPricing with
        | .error message => .error message
        | .ok pricing =>
            let quantum : Units := pricing.reserveQuantum
            match ceilToQuantum ((account.outstanding + quantum : ℤ) : ℚ) quantum,
                db.users userId with
            | .error message, _ => .error message
            | .ok _, none => .error "USER_NOT_FOUND"
            | .ok reserveAmount, some user =>
                let (db, reserved, balanceAfter) :=
                  reserveForHourlyCharge db userId instanceId reserveAmount user.balance
                if reserved < reserveAmount then .error "BALANCE_INSUFFICIENT"
                else
                  let db :=
                    if 0 < account.outstanding then
                      let (db, _) := db.createBalanceLog
                        { id := 0, userId, type := .hourlyConsume, amount := account.outstanding
                          balanceBefore := balanceAfter, balanceAfter
                          instanceId := some instanceId }
                      (createHourlyHostingIncome db now instanceId account.outstanding).updateUser
                        userId fun u =>
                          { u with
                              hourlyReservedBalance :=
                                u.hourlyReservedBalance - account.outstanding }
                    else db
                  .ok (db.updateHourly instanceId fun a =>
                    { a with
                        status := .paused, outstanding := 0
                        prepaidBalance := reserveAmount - account.outstanding
                        totalReserved := a.totalReserved + reserveAmount
                        lastSettledAt := now, nextSettlementAt := none })

/-! ## Pausing and closing -/

/-- A last settlement, and what is prepaid goes back to the balance. -/
def endHourlyBilling (status : HourlyBillingStatus) (db : Db) (now : Time) (rates : HourlyRates)
    (instanceId : ℕ) : Except String (Db × Bool) :=
  match settleInTransaction db now rates instanceId true with
  | .error message => .error message
  | .ok (db, suspended) =>
      match db.hourlyAccount instanceId, db.instances instanceId with
      | none, _ | _, none => .ok (db, suspended)
      | some account, some inst =>
          if account.status = .closed then .ok (db, suspended)
          else
            let prepaid := account.prepaidBalance
            let ended (db : Db) : Db :=
              db.updateHourly instanceId fun a =>
                { a with
                    status, nextSettlementAt := none, prepaidBalance := 0
                    totalReleased := a.totalReleased + prepaid }
            if 0 < prepaid then
              match db.users inst.userId with
              | none => .error "Hourly billing user not found"
              | some user =>
                  let db := db.updateUser inst.userId fun u =>
                    { u with
                        balance := u.balance + prepaid
                        hourlyReservedBalance := u.hourlyReservedBalance - prepaid }
                  let (db, _) := db.createBalanceLog
                    { id := 0, userId := inst.userId, type := .hourlyRelease, amount := prepaid
                      balanceBefore := user.balance, balanceAfter := user.balance + prepaid
                      instanceId := some instanceId }
                  .ok (ended db, suspended)
            else .ok (ended db, suspended)

/-- `pauseHourlyBilling`. -/
def pauseHourlyBilling := endHourlyBilling .paused

/-- `closeHourlyBilling`. -/
def closeHourlyBilling := endHourlyBilling .closed

/-- The purchase of an hourly instance: a first quantum is frozen for its account. -/
def openHourlyAccount (db : Db) (now : Time) (pricing : HourlyPricing) (instanceId userId : ℕ) :
    Except String Db :=
  let reserveAmount : Units := pricing.reserveQuantum
  match db.users userId with
  | none => .error "USER_NOT_FOUND: 用户不存在"
  | some user =>
      if user.balance < reserveAmount then
        .error "BALANCE_INSUFFICIENT: 余额不足，需要冻结按小时计费预付款"
      else
        let db := db.updateUser userId fun u =>
          { u with
              balance := u.balance - reserveAmount
              hourlyReservedBalance := u.hourlyReservedBalance + reserveAmount }
        let (db, _) := db.createBalanceLog
          { id := 0, userId, type := .hourlyReserve, amount := -reserveAmount
            balanceBefore := user.balance, balanceAfter := user.balance - reserveAmount
            instanceId := some instanceId }
        .ok { db with
          hourlyAccounts := db.hourlyAccounts ++
            [{ instanceId, status := .paused, prepaidBalance := reserveAmount
               totalReserved := reserveAmount, lastSettledAt := now }] }

end Incudal
