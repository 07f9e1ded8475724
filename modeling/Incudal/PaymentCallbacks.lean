/-
# `PaymentCallbacks` — `handlePaymentCallback`, one database operation at a time

The handler is sequential code around a handful of awaited database
operations, and any number of its activations run at once.  What happens
between two operations is a function here: `admitCallback` verifies a request and
extracts what it says, `decide` chooses what to do with an order.  What an
activation has yet to do is its `CallbackStage`, and a step of the system takes
one activation over its next operation.

Keys and configurations are the gateway's and the operator's: a `ProviderConfig`
says whether it is complete and which requests carry its signature.
-/
import Incudal.Recharge

namespace Incudal

/-! ## Strings and numbers of the runtime -/

/-- The white space that `trim` and `parseFloat` skip. -/
def jsSpace (c : Char) : Bool :=
  c == ' ' || ('\t' ≤ c && c ≤ '\r') || c == '\u00a0' || c == '\u1680' ||
    ('\u2000' ≤ c && c ≤ '\u200a') || c == '\u2028' || c == '\u2029' || c == '\u202f' ||
    c == '\u205f' || c == '\u3000' || c == '\ufeff'

def jsTrim (s : String) : String :=
  String.ofList ((s.toList.dropWhile jsSpace).reverse.dropWhile jsSpace).reverse

def digitsValue (digits : List Char) : ℕ := digits.foldl (fun n d => 10 * n + (d.toNat - 48)) 0

/-- The exponent part at the head of the text, if there is one. -/
def exponentValue : List Char → ℤ
  | e :: rest =>
      if e = 'e' || e = 'E' then
        match rest with
        | '-' :: ds => -(digitsValue (ds.takeWhile Char.isDigit) : ℤ)
        | '+' :: ds => digitsValue (ds.takeWhile Char.isDigit)
        | ds => digitsValue (ds.takeWhile Char.isDigit)
      else 0
  | [] => 0

/-- The longest decimal literal at the head of the text. -/
def parseUnsigned (cs : List Char) : Option ℚ :=
  let whole := cs.takeWhile Char.isDigit
  let rest := cs.dropWhile Char.isDigit
  let (fraction, rest) := match rest with
    | '.' :: ds => (ds.takeWhile Char.isDigit, ds.dropWhile Char.isDigit)
    | ds => ([], ds)
  if whole ++ fraction = [] then none
  else
    let value := (digitsValue (whole ++ fraction) : ℚ) *
      10 ^ (exponentValue rest - fraction.length)
    -- what is not below `2 ^ 1024` is read as infinity
    if value < 2 ^ 1024 then some value else none

/-- `parseFloat`; nothing where the result is not a finite number. -/
def parseFloat (s : String) : Option ℚ :=
  match s.toList.dropWhile jsSpace with
  | '-' :: cs => (parseUnsigned cs).map (-·)
  | '+' :: cs => parseUnsigned cs
  | cs => parseUnsigned cs

/-- A value of a request body or query, as far as the handler tells values apart. -/
inductive CallbackValue
  | null
  | bool (b : Bool)
  | number (q : ℚ)
  | string (s : String)
  | object
deriving DecidableEq, Repr

namespace CallbackValue

def truthy : CallbackValue → Bool
  | null => false
  | bool b => b
  | number q => q != 0
  | string s => s != ""
  | object => true

/-- The text, if it is one that is not blank. -/
def text : CallbackValue → Option String
  | string s => if jsTrim s = "" then none else some s
  | _ => none

/-- `parseFloat(value as string)`. -/
def toFloat : CallbackValue → Option ℚ
  | string s => parseFloat s
  | number q => some q
  | _ => none

end CallbackValue

abbrev CallbackData := List (String × CallbackValue)

namespace CallbackData

variable (data : CallbackData)

/-- A property of the data; nothing if it is undefined. -/
def get (name : String) : Option CallbackValue := (data.find? fun p => p.1 == name).map Prod.snd

/-- The property, if it is truthy. -/
def getTruthy (name : String) : Option CallbackValue := (get data name).filter CallbackValue.truthy

/-- `data.a || data.b || …` -/
def firstTruthy (names : List String) : Option CallbackValue := names.findSome? (getTruthy data)

/-- `data.a ?? data.b` -/
def coalesce (a b : String) : Option CallbackValue :=
  match get data a with
  | none | some .null => get data b
  | some v => some v

end CallbackData

/-! ## Providers -/

inductive ProviderType
  | yipay | heleket | manual | rechargeCard
  /-- a type without a safe recharge flow -/
  | unsupported (type : String)
deriving DecidableEq, Repr

structure ProviderConfig where
  /-- what `buildEpayConfig` or `buildHeleketConfig` misses -/
  missing : Option String := none
  /-- version 1 of the yipay interface -/
  v1 : Bool := false
  /-- the request carries a valid signature and, where it has one, a current time stamp -/
  verifies : Time → CallbackData → Bool

structure PaymentProvider where
  id : ℕ
  type : ProviderType
  /-- `resolveRechargeProviderConfig`: the configuration that the order's
  snapshot holds, or else the current one -/
  config : Option RechargeRecord → ProviderConfig

inductive HeleketPaymentState
  | paid | pending | cancelled | failed
deriving DecidableEq, Repr

/-- `extractHeleketStatus` -/
def extractHeleketStatus (data : CallbackData) : String :=
  match data.coalesce "status" "payment_status" with
  | some (.string s) => s
  | _ => ""

/-- `getHeleketStatusDescription` -/
def getHeleketStatusDescription (status : String) : String :=
  match status with
  | "paid" => "支付成功，金额与账单一致"
  | "paid_over" => "支付成功，用户超额付款"
  | "wrong_amount" => "支付金额不足"
  | "process" => "支付处理中"
  | "confirm_check" => "链上已发现交易，等待确认数"
  | "wrong_amount_waiting" => "支付金额不足，等待补付"
  | "check" => "等待链上出现交易"
  | "fail" => "支付失败"
  | "cancel" => "支付已取消"
  | "system_fail" => "支付系统异常"
  | "refund_process" => "退款处理中"
  | "refund_fail" => "退款失败"
  | "refund_paid" => "已退款"
  | "locked" => "资金因 AML 风控被锁定"
  | status => if status = "" then "未知支付状态" else status

/-- `getHeleketPaymentState` -/
def getHeleketPaymentState (data : CallbackData) : HeleketPaymentState :=
  let status := extractHeleketStatus data
  if status ∈ ["paid", "paid_over"] then .paid
  else if status ∈ ["cancel"] then .cancelled
  else if status ∈
      ["wrong_amount", "fail", "system_fail", "refund_process", "refund_fail", "refund_paid",
        "locked"] then .failed
  else if status ∈ ["process", "confirm_check", "wrong_amount_waiting", "check"] then .pending
  else if data.get "is_final" = some (.bool true) then .failed
  else .pending

/-- `getHeleketInvoiceAmount` -/
def getHeleketInvoiceAmount (data : CallbackData) : Option ℚ :=
  match data.get "amount" with
  | some v => (v.text.bind parseFloat).filter fun q => decide (0 < q)
  | none => none

/-! ## What a request says -/

inductive CallbackReply
  /-- an answer after which the gateway does not deliver again -/
  | success (body : String)
  | error (status : ℕ) (message : String)
deriving DecidableEq, Repr

/-- What is sent to the gateway when there is nothing more to do. -/
def PaymentProvider.done (provider : PaymentProvider) (config : ProviderConfig) : CallbackReply :=
  if provider.type = .yipay ∧ config.v1 = true then .success "success"
  else .success "SUCCESS OK"

/-- What a verified request says. -/
structure PaymentNotice where
  orderNo : String
  tradeNo : Option String
  amount : Option ℚ
  state : HeleketPaymentState
  heleketStatus : String
deriving DecidableEq, Repr

/-- `extractRechargeOrderNoFromCallback`, where it is a text. -/
def extractRechargeOrderNoFromCallback (type : ProviderType) (data : CallbackData) : Option String :=
  let value := match type with
    | .yipay => data.getTruthy "out_trade_no"
    | .heleket => data.getTruthy "order_id"
    | _ => data.firstTruthy ["orderNo", "order_no", "out_trade_no"]
  match value with
  | some (.string orderNo) => some orderNo
  | _ => none

/-- The order number, the trade number and the amount under the names that the
provider uses. -/
def extractFields (type : ProviderType) (data : CallbackData) :
    Option CallbackValue × Option CallbackValue × Option ℚ :=
  match type with
  | .yipay =>
      (data.getTruthy "out_trade_no", data.get "trade_no",
        (data.getTruthy "money").bind CallbackValue.toFloat)
  | .heleket =>
      (data.getTruthy "order_id",
        some (.string ((["uuid", "txid", "order_id"].findSome? fun name =>
          (data.get name).bind CallbackValue.text).getD "")),
        if getHeleketPaymentState data = .paid then getHeleketInvoiceAmount data else none)
  | _ =>
      (data.firstTruthy ["orderNo", "order_no", "out_trade_no"],
        data.firstTruthy ["tradeNo", "trade_no", "transaction_id"],
        match data.get "amount" with
        | some (.number q) => some q
        | _ => none)

/-- The state that the request reports; only heleket reports another than paid. -/
def reportedState (type : ProviderType) (data : CallbackData) : HeleketPaymentState :=
  if type = .heleket then getHeleketPaymentState data else .paid

/-- Step 4: what the request says, if it says enough. -/
def noticeOf (type : ProviderType) (data : CallbackData) : Except CallbackReply PaymentNotice :=
  let state := reportedState type data
  match extractFields type data with
  | (none, _, _) => .error (.error 400 "缺少订单号")
  | (some orderNo, tradeNo, amount) =>
      if state = .paid ∧ (amount.filter fun q => decide (0 < q)) = none then
        .error (.error 400 "缺少有效支付金额")
      else
        match orderNo, tradeNo with
        | .string orderNo, none => .ok ⟨orderNo, none, amount, state, extractHeleketStatus data⟩
        | .string orderNo, some .null => .ok ⟨orderNo, none, amount, state, extractHeleketStatus data⟩
        | .string orderNo, some (.string tradeNo) =>
            .ok ⟨orderNo, some tradeNo, amount, state, extractHeleketStatus data⟩
        -- a value that is not a text fails in `trim` or in the query
        | _, _ => .error (.error 500 "回调处理失败")

/-- `validateActiveRechargeProvider` -/
def validateActiveRechargeProvider (type : ProviderType) (config : ProviderConfig) :
    Option String :=
  match type with
  | .unsupported name => some s!"支付渠道类型 {name} 当前未实现安全的充值流程，暂不支持启用"
  | .yipay | .heleket => config.missing
  | .manual | .rechargeCard => none

/-- Steps 1 to 4 of the handler, after the order that the request names has been
read for its configuration. -/
def admitCallback (provider : PaymentProvider) (now : Time) (ipAllowed : Bool)
    (record : Option RechargeRecord) (data : CallbackData) : Except CallbackReply PaymentNotice :=
  let config := provider.config record
  if !ipAllowed then .error (.error 403 "拒绝访问")
  else
    match validateActiveRechargeProvider provider.type config with
    | some message => .error (.error 400 message)
    | none =>
        if !config.verifies now data then .error (.error 400 "签名验证失败")
        else if provider.type = .yipay ∧ data.get "trade_status" ≠ some (.string "TRADE_SUCCESS") then
          .error (provider.done config)
        else noticeOf provider.type data

/-- `getTradeNoForIndex` -/
def getTradeNoForIndex (now : Time) (orderNo : String) (tradeNo : Option String) : String :=
  match tradeNo with
  | some tradeNo =>
      if jsTrim tradeNo = "" then s!"__NO_TRADE_NO__{orderNo}__{now}" else jsTrim tradeNo
  | none => s!"__NO_TRADE_NO__{orderNo}__{now}"

/-! ## What is to be done with an order -/

/-- `getRechargePayableAmount` -/
def getRechargePayableAmount (amount : Cents) (paymentDetails : Option RechargePaymentDetails) : ℚ :=
  match paymentDetails.bind RechargePaymentDetails.payableAmount with
  | some payable => if 0 < payable then payable else ofCents amount
  | none => ofCents amount

def RechargeRecord.payable (r : RechargeRecord) : ℚ :=
  getRechargePayableAmount r.amount r.paymentDetails

/-- `mergeHeleketPaymentDetails` -/
def mergeHeleketPaymentDetails (existing : Option RechargePaymentDetails) (status : String) :
    RechargePaymentDetails :=
  { existing.getD {} with heleketStatus := some status }

def amountTolerance : ℚ := 1 / 100

/-- The paid amount is accepted for the expected one. -/
def amountAccepted (type : ProviderType) (paid expected : ℚ) : Bool :=
  if type = .heleket then !decide (paid + amountTolerance < expected)
  else !decide (amountTolerance < |paid - expected|)

/-- What the handler passes to `completeRecharge`. -/
def completeData (provider : PaymentProvider) (notice : PaymentNotice) (record : RechargeRecord) :
    CompleteData :=
  { tradeNo := notice.tradeNo
    actualAmount := some (match record.actualAmount with
      | some actual => ofCents actual
      | none => ofCents record.amount)
    paymentDetails :=
      if provider.type = .heleket then
        some (mergeHeleketPaymentDetails record.paymentDetails notice.heleketStatus)
      else record.paymentDetails }

/-- What an activation has yet to do. -/
inductive CallbackStage
  /-- the duplicate check, with the order if it has been read already -/
  | filter (record : Option RechargeRecord)
  | load
  | metadata (record : RechargeRecord)
  | close (record : RechargeRecord)
  | begin (record : RechargeRecord)
  | commit (completion : Completion)
  /-- the read after a completion that has failed -/
  | recheck
  /-- the mark in `payment_callbacks`; in the `try` block of the completion or not -/
  | mark (inTry : Bool)
  | answered (reply : CallbackReply)
deriving DecidableEq, Repr

/-- Steps 7 to 10 of the handler. -/
def decideCallback (provider : PaymentProvider) (notice : PaymentNotice) (record : RechargeRecord) :
    CallbackStage :=
  if record.providerId ≠ provider.id then .answered (.error 400 "支付渠道不匹配")
  else if notice.state ≠ .paid then
    if notice.state = .pending then .metadata record
    else if record.status = .completed then .mark false
    else if record.status.open then .close record
    else .mark false
  else if !amountAccepted provider.type (notice.amount.getD 0) record.payable then
    .answered (.error 400 (if provider.type = .heleket then "支付金额不足" else "支付金额与订单金额不匹配"))
  else if record.status = .completed then .mark false
  else if !record.status.completable then .answered (.error 400 "订单状态异常")
  else .begin record

/-! ## The system -/

/-- A row of `payment_callbacks`. -/
structure PaymentCallback where
  providerId : ℕ
  orderNo : String
  tradeNo : String
  createdAt : Time
deriving DecidableEq, Repr

/-- A request that was admitted. -/
structure CallbackRequest where
  data : CallbackData
  receivedAt : Time
  /-- the order that has decided on the configuration -/
  preliminary : Option RechargeRecord
  notice : PaymentNotice
  tradeNoForIndex : String
deriving DecidableEq, Repr

/-- An activation of the handler for an admitted request. -/
structure Delivery extends CallbackRequest where
  id : ℕ
  stage : CallbackStage
  /-- the notice has been marked as processed -/
  recorded : Bool := false
deriving DecidableEq, Repr

structure CallbackWorld where
  now : Time
  db : RechargeDb
  callbacks : List PaymentCallback := []
  nextId : ℕ := 0
  deliveries : List Delivery := []

inductive CallbackEvent
  | advance (now : Time)
  | createOrder (input : CreateRechargeOrderInput)
  | cancelOrder (orderNo : String)
  | expireOrders (orderNos : List String)
  | cleanExpired
  | cleanOldCallbacks
  /-- a request comes in: the named order is read and the request admitted or refused -/
  | receive (ipAllowed : Bool) (data : CallbackData)
  /-- the activation goes over its next database operation -/
  | proceed (id : ℕ)
  /-- its next operation fails -/
  | throw (id : ℕ)
deriving DecidableEq, Repr

namespace CallbackWorld

variable (w : CallbackWorld)

def delivery (id : ℕ) : Option Delivery := Keyed.lookup Delivery.id id w.deliveries

def setStage (id : ℕ) (stage : CallbackStage) : CallbackWorld :=
  { w with deliveries := Keyed.modify Delivery.id id (fun d => { d with stage }) w.deliveries }

def isCallbackProcessed (providerId : ℕ) (orderNo tradeNo : String) : Bool :=
  w.callbacks.any fun c => c.providerId == providerId && c.orderNo == orderNo && c.tradeNo == tradeNo

/-- `markCallbackProcessed`; a row that is there already is left alone. -/
def markCallbackProcessed (providerId : ℕ) (orderNo tradeNo : String) : List PaymentCallback :=
  if w.isCallbackProcessed providerId orderNo tradeNo then w.callbacks
  else w.callbacks ++ [⟨providerId, orderNo, tradeNo, w.now⟩]

/-- The database operation of the activation's stage and what the handler makes
of its result. -/
def advanceDelivery (provider : PaymentProvider) (d : Delivery) : CallbackWorld :=
  let n := d.notice
  let done := CallbackStage.answered (provider.done (provider.config d.preliminary))
  match d.stage with
  | .filter record =>
      if w.isCallbackProcessed provider.id n.orderNo d.tradeNoForIndex then w.setStage d.id done
      else
        match record with
        | some record => w.setStage d.id (decideCallback provider n record)
        | none => w.setStage d.id .load
  | .load =>
      match w.db.find n.orderNo with
      | none => w.setStage d.id (.answered (.error 404 "订单不存在"))
      | some record => w.setStage d.id (decideCallback provider n record)
  | .metadata record =>
      match updateRechargeOrderMetadata w.db n.orderNo (some n.tradeNo)
          (some (mergeHeleketPaymentDetails record.paymentDetails n.heleketStatus)) with
      | .ok db => { w with db }.setStage d.id done
      | .error _ => w.setStage d.id (.answered (.error 500 "回调处理失败"))
  | .close record =>
      let details := some (mergeHeleketPaymentDetails record.paymentDetails n.heleketStatus)
      match (if n.state = .cancelled then cancelRecharge w.db n.orderNo details
          else failRecharge w.db n.orderNo (getHeleketStatusDescription n.heleketStatus) details) with
      | .ok db => { w with db }.setStage d.id (.mark false)
      | .error _ => w.setStage d.id (.answered (.error 500 "回调处理失败"))
  | .begin record =>
      match startComplete w.db n.orderNo (completeData provider n record) with
      | .ok (some completion) => w.setStage d.id (.commit completion)
      | .ok none => w.setStage d.id (.mark true)
      | .error _ => w.setStage d.id .recheck
  | .commit completion =>
      match commitComplete w.db completion with
      | .ok db => { w with db }.setStage d.id (.mark true)
      | .error _ => w.setStage d.id .recheck
  | .recheck =>
      match w.db.find n.orderNo with
      | some record =>
          w.setStage d.id
            (if record.status = .completed then .mark false
            else .answered (.error 500 "回调处理失败"))
      | none => w.setStage d.id (.answered (.error 500 "回调处理失败"))
  | .mark _ =>
      { w with
        callbacks := w.markCallbackProcessed provider.id n.orderNo d.tradeNoForIndex
        deliveries := Keyed.modify Delivery.id d.id
          (fun d => { d with stage := done, recorded := true }) w.deliveries }
  | .answered _ => w

end CallbackWorld

/-- The stage after an operation that has failed. -/
def Delivery.thrown (provider : PaymentProvider) (d : Delivery) : CallbackStage :=
  match d.stage with
  -- `isCallbackProcessed` takes a failure for a new callback
  | .filter (some record) => decideCallback provider d.notice record
  | .filter none => .load
  | .begin _ | .commit _ | .mark true => .recheck
  -- `markCallbackProcessed` ignores every error
  | .mark false => .answered (provider.done (provider.config d.preliminary))
  | .load | .metadata _ | .close _ | .recheck => .answered (.error 500 "回调处理失败")
  | .answered reply => .answered reply

/-- `cleanOldPaymentCallbacks` -/
def cleanOldPaymentCallbacks (callbacks : List PaymentCallback) (now : Time) :
    List PaymentCallback :=
  callbacks.filter fun c => !decide (c.createdAt < now - 30 * 24 * 60 * 60 * 1000)

/-- The tables after a transaction; one that is rolled back leaves them as they were. -/
def RechargeDb.after (db : RechargeDb) (result : Except RechargeError RechargeDb) : RechargeDb :=
  match result with
  | .ok db' => db'
  | .error _ => db

def callbackStep (provider : PaymentProvider) (w : CallbackWorld) :
    CallbackEvent → Option CallbackWorld
  | .advance now => if w.now ≤ now then some { w with now } else none
  | .createOrder input =>
      some { w with db := w.db.after (createRechargeOrder w.db w.now input) }
  | .cancelOrder orderNo => some { w with db := w.db.after (cancelRecharge w.db orderNo none) }
  | .expireOrders orderNos => some { w with db := expireOrders w.db orderNos }
  | .cleanExpired => some { w with db := cleanExpiredRechargeOrders w.db w.now }
  | .cleanOldCallbacks =>
      some { w with callbacks := cleanOldPaymentCallbacks w.callbacks w.now }
  | .receive ipAllowed data =>
      let record := (extractRechargeOrderNoFromCallback provider.type data).bind w.db.find
      match admitCallback provider w.now ipAllowed record data with
      | .error _ => some w
      | .ok notice =>
          some { w with
            nextId := w.nextId + 1
            deliveries := w.deliveries ++ [{
              id := w.nextId
              data
              receivedAt := w.now
              preliminary := record
              notice
              tradeNoForIndex := getTradeNoForIndex w.now notice.orderNo notice.tradeNo
              stage := .filter (record.filter fun r => r.orderNo == notice.orderNo) }] }
  | .proceed id => (w.delivery id).map (w.advanceDelivery provider)
  | .throw id => (w.delivery id).map fun d => w.setStage d.id (d.thrown provider)

end Incudal
