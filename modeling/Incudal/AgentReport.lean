/-
# `AgentReport` — what a host's agent may change

The agent of a host reports its instances: names, statuses, counters and
addresses.  The report is a payload of any shape; what of it can be read is
normalized, each name once, and applied to the instances of the host that have
these names.  A status is written only over the status that was read before,
and only where that is running, stopped or error.

Error is also the status of an instance that could not be created and has been
refunded; a report that it runs takes it back to running
(`report_respects_iff`).
-/
import Incudal.HourlyBilling
import Incudal.PaymentCallbacks
import Incudal.TrafficCounters
import Incudal.Lib.Json
import Mathlib

namespace Incudal

open Json (JsChar)

/-! ## The payload -/

abbrev Text := List JsChar

/-- A text of characters. -/
def text (s : String) : Text := s.toList.map .char

/-- The UTF-16 units of a text. -/
def Text.units (s : Text) : List ℕ :=
  s.flatMap fun
    | .lone unit => [unit]
    | .char c =>
        if c.toNat < 0x10000 then [c.toNat]
        else [0xD800 + (c.toNat - 0x10000) / 0x400, 0xDC00 + (c.toNat - 0x10000) % 0x400]

/-- `includes`. -/
def Text.includes (s needle : Text) : Bool := decide (needle.units <:+: s.units)

/-- `startsWith`. -/
def Text.startsWith (s start : Text) : Bool := decide (start.units <+: s.units)

/-- What `JSON.parse` returns; a number is its exact value, if it is finite. -/
inductive JsValue
  | null
  | bool (b : Bool)
  | number (value : Option ℚ)
  | string (s : Text)
  | array (items : List JsValue)
  | object (properties : List (Text × JsValue))

/-- A property of an object, if it has it. -/
def JsValue.get? (name : String) : JsValue → Option JsValue
  | .object properties => (properties.find? fun p => p.1 == text name).map Prod.snd
  | _ => none

/-- The property where the value is a record, else that of an empty one. -/
def JsValue.record? (name : String) (value : JsValue) : JsValue :=
  match value.get? name with
  | some (.object properties) => .object properties
  | _ => .object []

/-- What `trim` removes. -/
def isTrimmed : JsChar → Bool
  | .char c => jsSpace c
  | .lone _ => false

/-- `trim`. -/
def Text.trimmed (s : Text) : Text :=
  ((s.dropWhile isTrimmed).reverse.dropWhile isTrimmed).reverse

/-- `slice(0, n)`: a character beyond the first plane has two units, and may be cut in half. -/
def Text.slice : ℕ → Text → Text
  | 0, _ => []
  | _, [] => []
  | n + 1, .lone unit :: s => .lone unit :: Text.slice n s
  | n + 1, .char c :: s =>
      if c.toNat < 0x10000 then .char c :: Text.slice n s
      else
        match n with
        | 0 => [.lone (0xD800 + (c.toNat - 0x10000) / 0x400)]
        | m + 1 => .char c :: Text.slice m s

/-- `sanitizeShortString`. -/
def sanitizeShortString (value : Option JsValue) (maxLength : ℕ) : Option Text :=
  match value with
  | some (.string s) => if s.trimmed = [] then none else some (s.trimmed.slice maxLength)
  | _ => none

/-- The digits of a text, if it is made of them. -/
def Text.digits? (s : Text) : Option (List Char) :=
  s.mapM fun
    | .char c => if c.isDigit then some c else none
    | .lone _ => none

/-- PostgreSQL's largest `BIGINT`. -/
def maxCounter : ℕ := 9223372036854775807

/-- `parseCounter`. -/
def parseCounter (value : Option JsValue) : Option ℕ :=
  match value with
  | some (.number (some q)) =>
      if q.den = 1 ∧ 0 ≤ q.num ∧ q.num ≤ 9007199254740991 then some q.num.toNat else none
  | some (.string s) =>
      match s.trimmed.digits? with
      | some digits =>
          let parsed := Nat.ofDigitChars 10 digits 0
          if digits ≠ [] ∧ digits.length ≤ 30 ∧ parsed ≤ maxCounter then some parsed else none
      | none => none
  | _ => none

/-- `mapInstanceStatus`, where it yields a status that an instance may be set to. -/
def mapInstanceStatus (raw : Text) : Option InstanceStatus :=
  if raw = text "Running" then some .running
  else if raw = text "Stopped" then some .stopped
  else if raw = text "Frozen" then some .stopped
  else if raw = text "Error" then some .error
  else if raw = text "Starting" then some .creating
  else if raw = text "Stopping" then some .running
  else none

/-- `normalizeStatus`. -/
def normalizeStatus (value : Option JsValue) : Option InstanceStatus :=
  match sanitizeShortString value 40 with
  | none => none
  | some raw =>
      if raw = text "running" then some .running
      else if raw = text "stopped" then some .stopped
      else if raw = text "error" then some .error
      else
        match mapInstanceStatus raw with
        | some .creating => none
        | mapped => mapped

/-- `normalizeNetworkAddress`: nothing for `undefined`, else the address or `null`. -/
def normalizeNetworkAddress (value : Option JsValue) : Option (Option Text) :=
  value.map fun v => sanitizeShortString (some v) 128

/-- The prefixes of addresses that are not routed. -/
def isUnroutedIpv6 (address : Text) : Bool :=
  let normalized := (address.takeWhile (· != .char '/')).map fun
    | .char c => JsChar.char c.toLower
    | .lone unit => .lone unit
  (text "fc").isPrefixOf normalized || (text "fd").isPrefixOf normalized
    || (text "fe80:").isPrefixOf normalized

/-- `normalizeReportedIpv6`. -/
def normalizeReportedIpv6 (value : Option JsValue) : Option (Option Text) :=
  match normalizeNetworkAddress value with
  | some (some address) => if isUnroutedIpv6 address then none else some (some address)
  | address => address

/-- An item of a report. -/
structure ReportItem extends NormalizedAgentInstanceItem where
  name : Text
  ipv4 : Option (Option Text) := none
  ipv6 : Option (Option Text) := none
deriving DecidableEq, Repr

/-- The item that a value is read as, under its name. -/
def normalizeItem (rawItem : JsValue) (name : Text) : ReportItem :=
  let traffic := rawItem.record? "traffic"
  let network := rawItem.record? "network"
  { name
    status := normalizeStatus (rawItem.get? "status")
    rxBytes := parseCounter (traffic.get? "rxBytes")
    txBytes := parseCounter (traffic.get? "txBytes")
    ipv4 := normalizeNetworkAddress (network.get? "ipv4")
    ipv6 := normalizeReportedIpv6 (network.get? "ipv6") }

/-- `maxAgentInstanceReportItems`. -/
def maxAgentInstanceReportItems : ℕ := 2000

/-- The loop of `normalizeAgentInstanceItems`: a name that has been seen is left out. -/
def normalizeReportItems : List Text → List JsValue → List ReportItem
  | _, [] => []
  | seenNames, rawItem :: rest =>
      match sanitizeShortString (rawItem.get? "name") 256 with
      | none => normalizeReportItems seenNames rest
      | some name =>
          if name ∈ seenNames then normalizeReportItems seenNames rest
          else normalizeItem rawItem name :: normalizeReportItems (name :: seenNames) rest

/-- `normalizeAgentInstanceItems`. -/
def normalizeAgentInstanceItems (payload : JsValue) : List ReportItem :=
  match payload.get? "items" with
  | some (.array items) => normalizeReportItems [] (items.take maxAgentInstanceReportItems)
  | _ => []

/-! ## The tables -/

/-- The columns of an instance that a report may write besides its status, and its
traffic. -/
structure ReportColumns where
  incusId : Text
  ipv4 : Option Text := none
  ipv6 : Option Text := none
  lastSyncedAt : Option Time := none
  monthlyTrafficUsed : ℕ := 0
  trafficSnapshot : Option Counters := none
  dailyTraffic : List DailyTraffic := []
deriving DecidableEq, Repr

structure ReportWorld where
  db : Db
  /-- the ids of the instances, in the order in which a query finds them -/
  instanceIds : List ℕ
  columns : ℕ → ReportColumns
  userQuota : ℕ → Option ℕ

/-- What the processing of a report finds around it. -/
structure ReportEnv where
  now : Time
  /-- the day of `now` -/
  date : Day
  rates : ℕ → HourlyRates
  /-- the traffic lock of the instance is not to be had -/
  trafficLocked : ℕ → Bool := fun _ => false

/-- `ReportedDbInstance`: what is read of an instance before its item is processed. -/
structure ReportedDbInstance where
  id : ℕ
  incusId : Text
  userId : ℕ
  status : InstanceStatus
  billingMode : InstanceBillingMode
deriving DecidableEq, Repr

namespace ReportWorld

variable (w : ReportWorld)

def updateColumns (id : ℕ) (f : ReportColumns → ReportColumns) : ReportWorld :=
  { w with columns := Function.update w.columns id (f (w.columns id)) }

/-- The rows that the traffic of an instance is counted in. -/
def trafficState (id userId : ℕ) : TrafficState where
  instance? := (w.db.instances id).map fun inst =>
    { id, hostId := inst.hostId, userId := inst.userId, status := inst.status
      monthlyTrafficUsed := (w.columns id).monthlyTrafficUsed }
  trafficSnapshot := (w.columns id).trafficSnapshot
  userQuota := w.userQuota userId
  dailyTraffic := (w.columns id).dailyTraffic

/-- The rows are written back. -/
def setTraffic (id userId : ℕ) (s : TrafficState) : ReportWorld :=
  { w.updateColumns id fun columns =>
      { columns with
          monthlyTrafficUsed := s.used, trafficSnapshot := s.trafficSnapshot
          dailyTraffic := s.dailyTraffic } with
    userQuota := Function.update w.userQuota userId s.userQuota }

/-- The instances of a host that have one of the names, unless deleted. -/
def findReported (hostId : ℕ) (incusIds : List Text) : List ReportedDbInstance :=
  w.instanceIds.filterMap fun id =>
    match w.db.instances id with
    | none => none
    | some inst =>
        if inst.hostId = hostId ∧ (w.columns id).incusId ∈ incusIds ∧ inst.status ≠ .deleted then
          some ⟨id, (w.columns id).incusId, inst.userId, inst.status, inst.billingMode⟩
        else none

end ReportWorld

/-- `instanceByIncusId.get`: of two instances with the name the map keeps the last. -/
def instanceByIncusId (instances : List ReportedDbInstance) (name : Text) :
    Option ReportedDbInstance :=
  instances.reverse.find? fun inst => inst.incusId == name

/-! ## One item -/

/-- `shouldSyncStatus`. -/
def shouldSyncStatus (currentStatus : InstanceStatus) (reportedStatus : Option InstanceStatus) :
    Bool :=
  reportedStatus.isSome
    && (currentStatus == .running || currentStatus == .stopped || currentStatus == .error)

/-- What processing an item comes to. -/
structure ItemResult where
  statusUpdated : ℕ := 0
  trafficUpdated : ℕ := 0
  trafficDelta : ℕ := 0
  skipped : ℕ := 0
  errors : ℕ := 0
deriving DecidableEq, Repr

/-- The update of `processOneAgentInstanceReport`, and whether it has found the row with the
status that was read before. -/
def writeReportedStatus (w : ReportWorld) (now : Time) (seen : ReportedDbInstance)
    (item : ReportItem) (status : InstanceStatus) : ReportWorld × Bool :=
  match w.db.instances seen.id with
  | none => (w, false)
  | some inst =>
      if inst.status = seen.status then
        (({ w with db := w.db.updateInstance seen.id fun i => { i with status } }).updateColumns
          seen.id fun columns =>
            { columns with
                lastSyncedAt := some now
                ipv4 := item.ipv4.getD columns.ipv4
                ipv6 := item.ipv6.getD columns.ipv6 }, true)
      else (w, false)

/-- What follows the status of an hourly instance. -/
def followHourly (db : Db) (e : ReportEnv) (instanceId : ℕ) (status : InstanceStatus) :
    Except String Db :=
  match status with
  | .running => (activateHourlyBilling db e.now (e.rates instanceId) instanceId).map Prod.fst
  | .stopped => (pauseHourlyBilling db e.now (e.rates instanceId) instanceId).map Prod.fst
  | _ => .ok db

/-- The first half of `processOneAgentInstanceReport`; the text when it throws. -/
def syncReportedStatus (w : ReportWorld) (e : ReportEnv) (seen : ReportedDbInstance)
    (item : ReportItem) : ReportWorld × ItemResult × Option String :=
  match item.status with
  | none => (w, { skipped := 1 }, none)
  | some status =>
      if !shouldSyncStatus seen.status item.status then (w, { skipped := 1 }, none)
      else
        let (w, updated) := writeReportedStatus w e.now seen item status
        let result : ItemResult := { statusUpdated := if updated then 1 else 0 }
        if updated ∧ seen.billingMode = .hourly then
          match followHourly w.db e seen.id status with
          | .error message => (w, { result with errors := 1 }, some message)
          | .ok db => ({ w with db }, result, none)
        else (w, result, none)

/-- The second half: the counters, under the traffic lock of the instance. -/
def syncReportedTraffic (w : ReportWorld) (e : ReportEnv) (seen : ReportedDbInstance)
    (item : ReportItem) (result : ItemResult) : ReportWorld × ItemResult :=
  if !shouldApplyTraffic seen.status item.toNormalizedAgentInstanceItem then (w, result)
  else if e.trafficLocked seen.id then (w, { result with errors := result.errors + 1 })
  else
    let (s, updated, delta) := applyReportedTrafficCounters (w.trafficState seen.id seen.userId)
      seen.status item.toNormalizedAgentInstanceItem e.date
    if updated then
      (w.setTraffic seen.id seen.userId s, { result with trafficUpdated := 1, trafficDelta := delta })
    else (w, result)

/-- `processOneAgentInstanceReport`. -/
def processOneAgentInstanceReport (w : ReportWorld) (e : ReportEnv) (seen : ReportedDbInstance)
    (item : ReportItem) : ReportWorld × ItemResult :=
  match syncReportedStatus w e seen item with
  | (w, result, some _) => (w, result)
  | (w, result, none) => syncReportedTraffic w e seen item result

/-! ## The report -/

/-- `AgentInstanceReportResult`, and the items that were applied, with their instances. -/
structure AgentInstanceReportResult where
  received : ℕ
  matched : ℕ := 0
  statusUpdated : ℕ := 0
  trafficUpdated : ℕ := 0
  trafficDeltaBytes : ℕ := 0
  skipped : ℕ := 0
  errors : ℕ := 0
  applied : List (Text × ℕ) := []
deriving DecidableEq, Repr

/-- An item that has no instance is skipped. -/
def AgentInstanceReportResult.skip (r : AgentInstanceReportResult) : AgentInstanceReportResult :=
  { r with skipped := r.skipped + 1 }

/-- The result of one item is added up. -/
def AgentInstanceReportResult.add (r : AgentInstanceReportResult) (item : ReportItem)
    (seen : ReportedDbInstance) (result : ItemResult) : AgentInstanceReportResult :=
  { r with
      matched := r.matched + 1
      statusUpdated := r.statusUpdated + result.statusUpdated
      trafficUpdated := r.trafficUpdated + result.trafficUpdated
      trafficDeltaBytes := r.trafficDeltaBytes + result.trafficDelta
      skipped := r.skipped + result.skipped
      errors := r.errors + result.errors
      applied := r.applied ++ [(item.name, seen.id)] }

/-- The items one after the other, with what was read of the instances before. -/
def processItems (e : ReportEnv) (instances : List ReportedDbInstance) :
    List ReportItem → ReportWorld → AgentInstanceReportResult →
      ReportWorld × AgentInstanceReportResult
  | [], w, r => (w, r)
  | item :: items, w, r =>
      match instanceByIncusId instances item.name with
      | none => processItems e instances items w r.skip
      | some seen =>
          let (w, result) := processOneAgentInstanceReport w e seen item
          processItems e instances items w (r.add item seen result)

/-- `processAgentInstanceReport`. -/
def processAgentInstanceReport (w : ReportWorld) (e : ReportEnv) (hostId : ℕ) (payload : JsValue) :
    ReportWorld × AgentInstanceReportResult :=
  let items := normalizeAgentInstanceItems payload
  let instances := w.findReported hostId (items.map ReportItem.name)
  processItems e instances items w { received := items.length }

end Incudal
