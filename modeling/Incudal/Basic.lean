/-
# `Basic` — the enumerations, amounts and instants that every part shares

Amounts come in two scales, as the database columns do: `Cents` for columns
with two decimals (billing records, plan prices) and `Units` for columns with
eight decimals (balances and their logs, hourly accounts).  Instants are
milliseconds.
-/
import Mathlib.Data.Int.Notation
import Mathlib.Data.Nat.Notation

namespace Incudal

/-- The status column of an instance. -/
inductive InstanceStatus
  | creating | running | stopped | suspended | error | deleted
deriving DecidableEq, Repr

/-- How an instance is paid for. -/
inductive InstanceBillingMode
  | package | hourly
deriving DecidableEq, Repr

/-- How the traffic of an instance is paid for. -/
inductive TrafficBillingMode
  | package | usage
deriving DecidableEq, Repr

/-- Hundredths of a yuan: `Decimal(10, 2)`. -/
abbrev Cents := ℤ

/-- Units of 10⁻⁸ yuan: `Decimal(20, 8)`. -/
abbrev Units := ℤ

/-- A two-decimal amount in an eight-decimal column. -/
def toUnits (c : Cents) : Units := c * 1000000

/-- Milliseconds since the epoch. -/
abbrev Time := ℤ

/-- What a row of the balance log was written for. -/
inductive BalanceLogType
  | recharge | consume | refund | hostingWithdraw | hostingDeduction | hourlyReserve | hourlyRelease
  | hourlyConsume
deriving DecidableEq, Repr

/-- A row of the balance log: one change of a user's balance. -/
structure BalanceLog where
  id : ℕ
  userId : ℕ
  type : BalanceLogType
  amount : Units
  balanceBefore : Units
  balanceAfter : Units
  instanceId : Option ℕ
deriving DecidableEq, Repr

end Incudal
