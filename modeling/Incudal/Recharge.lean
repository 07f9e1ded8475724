/-
# `Recharge` — recharge orders and what may happen to one

The amounts that reach these functions are numbers of the runtime, here `ℚ`; a
column holds hundredths.  `completeRecharge` is the one function that credits a
user.  It reads the order, resolves the amount, and only then opens the
transaction whose conditional update decides; between the two anything may
happen to the order, so it is two definitions here.  The others are single
transactions around a conditional update, and so are the two jobs that expire
orders.
-/
import Mathlib.Algebra.Order.Round
import Mathlib.Data.Rat.Floor
import Incudal.Basic
import Incudal.Lib.Keyed

namespace Incudal

/-- The status column of an order. -/
inductive RechargeStatus
  | pending | paid | completed | failed | cancelled | refunded
deriving DecidableEq, Repr

/-- What `payment_details` holds for the payable amount and the gateway. -/
structure RechargePaymentDetails where
  payableAmount : Option ℚ := none
  heleketStatus : Option String := none
deriving DecidableEq, Repr

structure RechargeRecord where
  orderNo : String
  userId : ℕ
  providerId : ℕ
  tradeNo : Option String := none
  amount : Cents
  actualAmount : Option Cents := none
  status : RechargeStatus := .pending
  failReason : Option String := none
  expiredAt : Option Time := none
  paymentDetails : Option RechargePaymentDetails := none
deriving DecidableEq, Repr

/-- A row of the balance log with type `recharge`. -/
structure RechargeLog where
  userId : ℕ
  amount : Cents
  balanceBefore : Units
  balanceAfter : Units
  orderId : String
deriving DecidableEq, Repr

structure RechargeDb where
  orders : List RechargeRecord := []
  balances : ℕ → Units
  /-- latest first -/
  logs : List RechargeLog := []

inductive RechargeError
  | notFound
  | status (status : RechargeStatus)
  | statusChanged
  | invalidRechargeAmount
  | invalidActualAmount
  | actualAmountExceedsOrder
  | duplicateOrder
deriving DecidableEq, Repr

def RechargeDb.find (db : RechargeDb) (orderNo : String) : Option RechargeRecord :=
  Keyed.lookup RechargeRecord.orderNo orderNo db.orders

def RechargeDb.rewrite (db : RechargeDb) (orderNo : String) (f : RechargeRecord → RechargeRecord) :
    RechargeDb :=
  { db with orders := Keyed.modify RechargeRecord.orderNo orderNo f db.orders }

/-! ## Amounts -/

def maxDecimal10_2 : ℚ := 99999999.99

/-- `Math.round(value * 100)`, the nearest number of hundredths. -/
def toCents (value : ℚ) : Cents := round (value * 100)

/-- `Number` of a column with two decimals. -/
def ofCents (c : Cents) : ℚ := c / 100

def isValidRechargeAmount (value : ℚ) : Bool :=
  decide (0 < value ∧ value ≤ maxDecimal10_2 ∧ |value - ofCents (toCents value)| < 1 / 1000000000)

/-- The amount to credit, in hundredths: `Number(value.toFixed(2))`. -/
def validateRechargeActualAmount (value orderAmount : ℚ) : Except RechargeError Cents :=
  if !isValidRechargeAmount orderAmount || !isValidRechargeAmount value then
    .error .invalidActualAmount
  else if orderAmount + 1 / 1000000000 < value then .error .actualAmountExceedsOrder
  else .ok (toCents value)

def resolveActualAmount (record : RechargeRecord) (requestedAmount : Option ℚ) :
    Except RechargeError Cents :=
  let actualAmount := match requestedAmount with
    | some requested => requested
    | none =>
        match record.actualAmount with
        | some actual => ofCents actual
        | none => ofCents record.amount
  validateRechargeActualAmount actualAmount (ofCents record.amount)

/-! ## Orders -/

structure CreateRechargeOrderInput where
  orderNo : String
  userId : ℕ
  providerId : ℕ
  amount : ℚ
  actualAmount : Option ℚ := none
  expiredAt : Option Time := none
  paymentDetails : Option RechargePaymentDetails := none
deriving DecidableEq, Repr

def createRechargeOrder (db : RechargeDb) (now : Time) (input : CreateRechargeOrderInput) :
    Except RechargeError RechargeDb :=
  if !isValidRechargeAmount input.amount then .error .invalidRechargeAmount
  else
    match input.actualAmount.mapM (validateRechargeActualAmount · input.amount) with
    | .error e => .error e
    | .ok _ =>
        -- the unique index on `order_no`
        if (db.find input.orderNo).isSome then .error .duplicateOrder
        else
          .ok { db with
            orders := db.orders ++ [{
              orderNo := input.orderNo
              userId := input.userId
              providerId := input.providerId
              amount := toCents input.amount
              actualAmount := input.actualAmount.map toCents
              status := .pending
              expiredAt := some (input.expiredAt.getD (now + 30 * 60 * 1000))
              paymentDetails := input.paymentDetails }] }

/-- The statuses that the guarded updates of `markRechargePaid`, `failRecharge`
and `cancelRecharge` accept. -/
def RechargeStatus.open : RechargeStatus → Bool
  | .pending | .paid => true
  | .completed | .failed | .cancelled | .refunded => false

/-- The statuses that the guarded update of `completeRecharge` accepts. -/
def RechargeStatus.completable : RechargeStatus → Bool
  | .pending | .paid | .cancelled => true
  | .completed | .failed | .refunded => false

/-- A transaction of a conditional update of one order; without a row to update
it is an error, unless the order is in one of the statuses `idle`. -/
def guardedUpdate (db : RechargeDb) (orderNo : String) (idle : List RechargeStatus)
    (f : RechargeRecord → RechargeRecord) : Except RechargeError RechargeDb :=
  match db.find orderNo with
  | none => .error .notFound
  | some record =>
      if record.status.open then .ok (db.rewrite orderNo f)
      else if record.status ∈ idle then .ok db
      else .error (.status record.status)

def markRechargePaid (db : RechargeDb) (orderNo : String) (tradeNo : Option String) :
    Except RechargeError RechargeDb :=
  guardedUpdate db orderNo [.paid, .completed] fun r =>
    { r with status := .paid, tradeNo := tradeNo.or r.tradeNo }

def failRecharge (db : RechargeDb) (orderNo failReason : String)
    (paymentDetails : Option RechargePaymentDetails) : Except RechargeError RechargeDb :=
  guardedUpdate db orderNo [.failed] fun r =>
    { r with
      status := .failed
      failReason := some failReason
      paymentDetails := paymentDetails.or r.paymentDetails }

def cancelRecharge (db : RechargeDb) (orderNo : String)
    (paymentDetails : Option RechargePaymentDetails) : Except RechargeError RechargeDb :=
  guardedUpdate db orderNo [.cancelled] fun r =>
    { r with status := .cancelled, paymentDetails := paymentDetails.or r.paymentDetails }

def updateRechargeOrderMetadata (db : RechargeDb) (orderNo : String)
    (tradeNo : Option (Option String)) (paymentDetails : Option RechargePaymentDetails) :
    Except RechargeError RechargeDb :=
  match db.find orderNo with
  | none => .error .notFound
  | some _ =>
      .ok (db.rewrite orderNo fun r =>
        { r with
          tradeNo := tradeNo.getD r.tradeNo
          paymentDetails := paymentDetails.or r.paymentDetails })

/-- The filter of the orders that a job cancels. -/
def RechargeDb.expire (db : RechargeDb) (p : RechargeRecord → Bool) : RechargeDb :=
  { db with
    orders := db.orders.map fun r =>
      if p r && r.status == .pending then { r with status := .cancelled } else r }

def expireOrders (db : RechargeDb) (orderNos : List String) : RechargeDb :=
  db.expire fun r => decide (r.orderNo ∈ orderNos)

def cleanExpiredRechargeOrders (db : RechargeDb) (now : Time) : RechargeDb :=
  db.expire fun r => match r.expiredAt with
    | some expiredAt => decide (expiredAt < now)
    | none => false

/-! ## Completion -/

structure CompleteData where
  tradeNo : Option String := none
  actualAmount : Option ℚ := none
  paymentDetails : Option RechargePaymentDetails := none
deriving DecidableEq, Repr

/-- A call of `completeRecharge` between its read and its transaction. -/
structure Completion where
  record : RechargeRecord
  data : CompleteData
  actualAmount : Cents
deriving DecidableEq, Repr

/-- `completeRecharge` up to its transaction; nothing for an order that is
completed already. -/
def startComplete (db : RechargeDb) (orderNo : String) (data : CompleteData) :
    Except RechargeError (Option Completion) :=
  match db.find orderNo with
  | none => .error .notFound
  | some record =>
      if record.status = .completed then .ok none
      else if record.status = .failed then .error (.status record.status)
      else
        match resolveActualAmount record data.actualAmount with
        | .error e => .error e
        | .ok actualAmount => .ok (some { record, data, actualAmount })

/-- What the transaction writes to the order. -/
def Completion.complete (c : Completion) (r : RechargeRecord) : RechargeRecord :=
  { r with
    status := .completed
    tradeNo := c.data.tradeNo.or r.tradeNo
    actualAmount := some c.actualAmount
    paymentDetails := c.data.paymentDetails.or c.record.paymentDetails }

/-- The balance and its log after the transaction. -/
def RechargeDb.credit (db : RechargeDb) (c : Completion) : RechargeDb :=
  let balance := db.balances c.record.userId
  { db with
    balances := Function.update db.balances c.record.userId (balance + toUnits c.actualAmount)
    logs := {
      userId := c.record.userId
      amount := c.actualAmount
      balanceBefore := balance
      balanceAfter := balance + toUnits c.actualAmount
      orderId := c.record.orderNo } :: db.logs }

/-- The transaction of `completeRecharge`. -/
def commitComplete (db : RechargeDb) (c : Completion) : Except RechargeError RechargeDb :=
  match db.find c.record.orderNo with
  | none => .error .statusChanged
  | some r =>
      if r.status.completable then .ok ((db.rewrite c.record.orderNo c.complete).credit c)
      else if r.status = .completed then .ok db
      else .error .statusChanged

end Incudal
