/-
# `Store` — the rows of the billing tables and the elementary writes

One `Db` holds the rows that the billing operations read and write.  Rows that
are only looked up by their id are functions from the id; the tables over which
the program sums or iterates are lists, oldest row first, so that the order by
`createdAt` is the order of the list.

A transaction is a function `Db → Except String (Db × α)`: an `Except.error`
carries the message that the source throws, and nothing is written then.  What
a transaction depends on besides the tables (the clock, and which advisory
locks are taken by transactions of others) is its `Env`.
-/
import Incudal.Basic
import Incudal.Lib.Keyed
import Incudal.Lib.Rounding

namespace Incudal

/-! ## Enumerations -/

/-- `UserRole`. -/
inductive Role
  | user | admin
deriving DecidableEq, Repr

/-- `BillingRecordType`. -/
inductive BillingRecordType
  | newPurchase | renew | upgrade | downgrade | refund | transferFee
deriving DecidableEq, Repr

/-- The values of `deletionBillingMode`. -/
inductive DeletionBillingMode
  | userDestroy | privilegedDelete | hourlyClose
deriving DecidableEq, Repr

/-- `HostingBalanceType`. -/
inductive HostingBalanceType
  | income | deduction | withdraw
deriving DecidableEq, Repr

/-- `OfficialCouponUsageType`. -/
inductive CouponUsageType
  | purchase | renewal
deriving DecidableEq, Repr

/-- `AffLogType`, as far as it is used here. -/
inductive AffLogType
  | newPurchase | renew | refund
deriving DecidableEq, Repr

/-- `HourlyBillingStatus`. -/
inductive HourlyBillingStatus
  | active | paused | suspended | closed
deriving DecidableEq, Repr

/-! ## Rows -/

structure User where
  role : Role := .user
  balance : Units := 0
  hostingBalance : Units := 0
  hourlyReservedBalance : Units := 0
  affBalance : Cents := 0
deriving DecidableEq, Repr

structure Host where
  userId : ℕ
  online : Bool := true
deriving DecidableEq, Repr

/-- The billing columns of an instance. -/
structure Instance where
  userId : ℕ
  hostId : ℕ
  status : InstanceStatus
  suspendReason : Option String := none
  billingMode : InstanceBillingMode := .package
  packageId : Option ℕ := none
  packagePlanId : Option ℕ := none
  billingPrice : Option Cents := none
  billingCycle : Option ℕ := none
  expiresAt : Option Time := none
  version : ℕ := 0
  provisioningCleanupPending : Bool := false
  deletionBillingPending : Bool := false
  deletionRemoteDeleted : Bool := false
  deletionBillingMode : Option DeletionBillingMode := none
  deletionRefundableValue : Option Cents := none
  deletionFeeWaiver : Bool := false
deriving DecidableEq, Repr

/-- A row of `instance_billing_records`. -/
structure BillingRecord where
  id : ℕ
  instanceId : ℕ
  userId : ℕ
  type : BillingRecordType
  amount : Cents
  months : ℕ := 0
  periodStart : Time
  periodEnd : Time
  balanceLogId : Option ℕ := none
  createdAt : Time
deriving DecidableEq, Repr

/-- A row of `hosting_balance_logs`. -/
structure HostingBalanceLog where
  id : ℕ
  userId : ℕ
  type : HostingBalanceType
  amount : Units
  frozen : Bool
  unfreezeAt : Option Time := none
  relatedId : Option ℕ
  createdAt : Time
deriving DecidableEq, Repr

/-- A row of `official_coupon_usages`. -/
structure CouponUsage where
  id : ℕ
  couponId : ℕ
  userId : ℕ
  instanceId : Option ℕ
  type : CouponUsageType
  originalPrice : Cents
  discountAmount : Cents
  createdAt : Time
deriving DecidableEq, Repr

/-- A row of `user_destroy_records`; `instanceId` is unique. -/
structure UserDestroyRecord where
  userId : ℕ
  hostId : ℕ
  instanceId : ℕ
  refundAmount : Cents
  feeAmount : Cents
  isFirstTime : Bool
deriving DecidableEq, Repr

/-- A row of `aff_logs`; `reverses` is the log that the remark of a reversal names. -/
structure AffLog where
  id : ℕ
  userId : ℕ
  affCodeId : Option ℕ
  instanceId : Option ℕ
  type : AffLogType
  amount : Cents
  originalAmount : Option Cents
  balanceBefore : Cents
  balanceAfter : Cents
  reverses : Option ℕ := none
deriving DecidableEq, Repr

structure AffCode where
  discountRate : ℚ
  enabled : Bool
  usedCount : ℕ := 0
  totalEarnings : Cents := 0
deriving DecidableEq, Repr

/-- The prepaid account of an instance that is billed by the hour. -/
structure HourlyBillingAccount where
  instanceId : ℕ
  status : HourlyBillingStatus
  prepaidBalance : Units
  outstanding : Units := 0
  totalReserved : Units
  totalReleased : Units := 0
  totalCost : Units := 0
  lastSettledAt : Time
  nextSettlementAt : Option Time := none
  version : ℕ := 0
deriving DecidableEq, Repr

/-- An instance row as the lineage search sees it. -/
structure BillingLineageSeed where
  id : ℕ
  userId : ℕ
  hostId : ℕ
  name : String
  expiresAt : Option Time
  updatedAt : Time
  status : InstanceStatus
  hasBillingRecords : Bool
deriving DecidableEq, Repr

/-- The data of an `instance_migrated` inbox message; absent fields are `none`. -/
structure MigrationMessage where
  userId : ℕ
  createdAt : Time
  instanceId : Option ℕ
  oldHostId : Option ℕ
  newHostId : Option ℕ
  instanceName : Option String
deriving DecidableEq, Repr

/-- What old migrations left behind: the rows and the messages, newest message
first.  The operations of this development do not write it. -/
structure MigrationHistory where
  seeds : List BillingLineageSeed := []
  messages : List MigrationMessage := []

/-! ## The database -/

structure Db where
  users : ℕ → Option User
  hosts : ℕ → Option Host
  instances : ℕ → Option Instance
  billingRecords : List BillingRecord := []
  balanceLogs : List BalanceLog := []
  hostingLogs : List HostingBalanceLog := []
  couponUsages : List CouponUsage := []
  /-- `official_coupons.used_count` -/
  couponUsedCount : ℕ → Option ℕ := fun _ => none
  destroyRecords : List UserDestroyRecord := []
  affLogs : List AffLog := []
  affCodes : ℕ → Option AffCode := fun _ => none
  /-- the code an instance is bound to -/
  affBindings : ℕ → Option ℕ := fun _ => none
  /-- the system setting `aff_rebate_enabled` -/
  affRebateEnabled : Bool := false
  hourlyAccounts : List HourlyBillingAccount := []
  history : MigrationHistory := {}
  nextId : ℕ := 1

/-- What a transaction finds around it. -/
structure Env where
  now : Time
  /-- owners whose hosting log another transaction has locked -/
  hostingLocked : ℕ → Bool := fun _ => false

namespace Db

variable (db : Db)

def setUser (id : ℕ) (u : User) : Db := { db with users := Function.update db.users id (some u) }

def updateUser (id : ℕ) (f : User → User) : Db :=
  { db with users := Function.update db.users id ((db.users id).map f) }

def setInstance (id : ℕ) (inst : Instance) : Db :=
  { db with instances := Function.update db.instances id (some inst) }

def updateInstance (id : ℕ) (f : Instance → Instance) : Db :=
  { db with instances := Function.update db.instances id ((db.instances id).map f) }

/-- `balanceLog.create`: the row gets the next id, which is returned. -/
def createBalanceLog (log : BalanceLog) : Db × ℕ :=
  ({ db with balanceLogs := db.balanceLogs ++ [{ log with id := db.nextId }]
             nextId := db.nextId + 1 }, db.nextId)

/-- `instanceBillingRecord.create`. -/
def createBillingRecord (record : BillingRecord) : Db :=
  { db with billingRecords := db.billingRecords ++ [{ record with id := db.nextId }]
            nextId := db.nextId + 1 }

/-- `hostingBalanceLog.create`. -/
def createHostingLog (log : HostingBalanceLog) : Db :=
  { db with hostingLogs := db.hostingLogs ++ [{ log with id := db.nextId }]
            nextId := db.nextId + 1 }

/-- `userDestroyRecord.create`. -/
def createDestroyRecord (record : UserDestroyRecord) : Db :=
  { db with destroyRecords := db.destroyRecords ++ [record] }

end Db

/-! ## Rounding -/

/-- `roundCurrency` on an amount in cents: two decimals, a half away from zero. -/
def roundCurrency (value : ℚ) : Cents := Rounding.halfAway value

@[simp] theorem roundCurrency_intCast (n : ℤ) : roundCurrency n = n := Rounding.halfAway_intCast n

@[simp] theorem roundCurrency_zero : roundCurrency 0 = 0 := Rounding.halfAway_zero

theorem roundCurrency_nonneg {value : ℚ} (h : 0 ≤ value) : 0 ≤ roundCurrency value :=
  Rounding.halfAway_nonneg h

theorem roundCurrency_max_zero (value : ℚ) :
    roundCurrency (max 0 value) = max 0 (roundCurrency value) := by
  rcases le_total 0 value with h | h
  · rw [max_eq_right h, max_eq_right (roundCurrency_nonneg h)]
  · have hneg : roundCurrency value ≤ 0 := Rounding.halfAway_nonpos h
    rw [max_eq_left h, max_eq_left hneg, roundCurrency_zero]

/-- `roundCurrency` on an amount in units, as a balance holds them. -/
def roundUnits (value : Units) : Units := toUnits (roundCurrency (value / 1000000))

/-- The result of a function that succeeded. -/
theorem toOption_eq_some {α : Type} {x : Except String α} {a : α} (h : x.toOption = some a) :
    x = .ok a := by
  cases x with
  | error message => simp [Except.toOption] at h
  | ok b =>
      simp only [Except.toOption, Option.some.injEq] at h
      rw [h]

/-- The first of two steps that succeed together. -/
theorem exists_of_bind_ok {ε α β : Type} {x : Except ε α} {f : α → Except ε β} {b : β}
    (h : (x >>= f) = .ok b) : ∃ a, x = .ok a ∧ f a = .ok b := by
  cases x with
  | error error => cases h
  | ok a => exact ⟨a, rfl, h⟩

/-- A check that comes before a result has been passed. -/
theorem ok_of_guard {ε α : Type} {c : Prop} [Decidable c] {error : ε} {x : Except ε α} {a : α}
    (h : (if c then .error error else x) = .ok a) : ¬c ∧ x = .ok a := by
  by_cases hc : c
  · rw [if_pos hc] at h
    cases h
  · rw [if_neg hc] at h
    exact ⟨hc, h⟩

end Incudal
