/-
# `IpAddresses` — the addresses of instances are reserved before they are used

A reservation picks candidates and writes them in one serializable transaction:
the rows of the addresses, and a copy in the fields of the instance.  The unique
key on host and address decides races; a call that loses one tries again with
other candidates, a hundred times at most.  An instance that has reserved an
address keeps it when its creation is tried again.

Rows and fields fall apart where a second reservation does not ask for a family
that the first has reserved, and where the rows of a deleted instance are
released, which leaves its fields; and the key does not compare hosts, so that
one IPv6 address may be reserved on two of them (`addresses_consistent`).
-/
import Incudal.Basic
import Incudal.Lib.Machine
import Mathlib.Data.List.Nodup
import Mathlib.Logic.Function.Basic

namespace Incudal

/-! ## Rows -/

inductive IpType
  | inet4 | inet6
deriving DecidableEq, Repr

structure IpAddress where
  address : String
  type : IpType
  isPrimary : Bool
  device : String
  hostId : ℕ
  instanceId : ℕ
deriving DecidableEq, Repr

/-- The columns of an instance that a reservation reads and writes. -/
structure IpInstance where
  hostId : ℕ
  status : InstanceStatus
  ipv4 : Option String := none
  ipv6 : Option String := none
deriving DecidableEq, Repr

/-- The field of a family. -/
def IpInstance.field (inst : IpInstance) : IpType → Option String
  | .inet4 => inst.ipv4
  | .inet6 => inst.ipv6

structure ReserveInstanceIpAddressesData where
  instanceId : ℕ
  hostId : ℕ
  allocateIpv4 : Bool
  ipv6Subnet : Option String
deriving DecidableEq, Repr

/-- Which families are asked for; an empty subnet is none. -/
def ReserveInstanceIpAddressesData.allocates (data : ReserveInstanceIpAddressesData) :
    IpType → Bool
  | .inet4 => data.allocateIpv4
  | .inet6 => data.ipv6Subnet.any (· ≠ "")

structure ReservedInstanceIpAddresses where
  ipv4 : Option String := none
  ipv6 : Option String := none
deriving DecidableEq, Repr

def ReservedInstanceIpAddresses.field (r : ReservedInstanceIpAddresses) : IpType → Option String
  | .inet4 => r.ipv4
  | .inet6 => r.ipv6

/-- A call of `reserveInstanceIpAddresses`. -/
structure ReserveCall where
  data : ReserveInstanceIpAddressesData
  attempt : ℕ := 0
  attemptedIpv4 : List String := []
  attemptedIpv6 : List String := []
  outcome : Option (Except String ReservedInstanceIpAddresses) := none
  /-- the primary addresses that the transaction that committed has found -/
  existing : ReservedInstanceIpAddresses := {}

structure IpWorld where
  instances : ℕ → Option IpInstance
  ipAddresses : List IpAddress := []
  calls : List ReserveCall := []
  /-- the instances that held a primary address when their rows were released -/
  releasedHolding : List ℕ := []

/-! ## The transaction -/

/-- How a transaction fails: it breaks the unique key, or throws. -/
inductive ReserveError
  | uniqueConflict
  | thrown (message : String)
deriving DecidableEq, Repr

/-- The first primary address of an instance in a family. -/
def primaryAddress (rows : List IpAddress) (instanceId : ℕ) (type : IpType) : Option String :=
  (rows.find? fun r => r.instanceId == instanceId && r.isPrimary && r.type == type).map
    IpAddress.address

/-- `ipAddress.create` under the unique key. -/
def createIpAddressRow (rows : List IpAddress) (row : IpAddress) :
    Except ReserveError (List IpAddress) :=
  if rows.any fun r => r.hostId == row.hostId && r.address == row.address then
    .error .uniqueConflict
  else .ok (rows ++ [row])

/-- The row of a family is created unless there is one. -/
def reserveAddress (rows : List IpAddress) (existing address : Option String)
    (row : String → IpAddress) : Except ReserveError (List IpAddress) :=
  match existing, address with
  | none, some address => createIpAddressRow rows (row address)
  | _, _ => .ok rows

/-- The primary row of a family, on its device. -/
def ReserveInstanceIpAddressesData.row (data : ReserveInstanceIpAddressesData) (type : IpType)
    (address : String) : IpAddress where
  address
  type
  isPrimary := true
  device :=
    match type with
    | .inet4 => "eth0"
    | .inet6 => "eth1"
  hostId := data.hostId
  instanceId := data.instanceId

/-- What is there of a family, or else the candidate. -/
def ReserveInstanceIpAddressesData.chosen (data : ReserveInstanceIpAddressesData) (type : IpType)
    (existing candidate : Option String) : Option String :=
  if data.allocates type then existing <|> candidate else none

/-- The transaction of `reserveInstanceIpAddresses`, with the candidates of an attempt. -/
def reserveTransaction (w : IpWorld) (data : ReserveInstanceIpAddressesData)
    (ipv4Candidate ipv6Candidate : Option String) :
    Except ReserveError (IpWorld × ReservedInstanceIpAddresses) :=
  match w.instances data.instanceId with
  | none =>
      .error (.thrown s!"Instance {data.instanceId} not found while reserving IP addresses")
  | some inst =>
      if inst.hostId ≠ data.hostId then
        .error (.thrown "Instance host changed while reserving IP addresses")
      else if inst.status = .deleted then
        .error (.thrown "Cannot reserve IP addresses for a deleted instance")
      else
        let existingIpv4 := primaryAddress w.ipAddresses data.instanceId .inet4
        let existingIpv6 := primaryAddress w.ipAddresses data.instanceId .inet6
        let ipv4 := data.chosen .inet4 existingIpv4 ipv4Candidate
        let ipv6 := data.chosen .inet6 existingIpv6 ipv6Candidate
        if data.allocates .inet4 ∧ ipv4 = none then .error (.thrown "IPv4 address pool exhausted")
        else if data.allocates .inet6 ∧ ipv6 = none then
          .error (.thrown "IPv6 address pool exhausted")
        else
          match reserveAddress w.ipAddresses existingIpv4 ipv4 (data.row .inet4) with
          | .error e => .error e
          | .ok rows =>
              match reserveAddress rows existingIpv6 ipv6 (data.row .inet6) with
              | .error e => .error e
              | .ok rows =>
                  .ok ({ w with
                      ipAddresses := rows
                      instances := Function.update w.instances data.instanceId
                        (some { inst with ipv4, ipv6 }) }, { ipv4, ipv6 })

/-! ## Calls -/

/-- `maxAttempts`. -/
def maxAttempts : ℕ := 100

/-- `nextDistinctCandidate`, of what the generator yields. -/
def nextDistinctCandidate (generated attempted : List String) : Option String :=
  (generated.take maxAttempts).find? fun candidate => decide (candidate ∉ attempted)

/-- The candidates of the next attempt of a call. -/
def ReserveCall.candidates (call : ReserveCall) (generatedIpv4 generatedIpv6 : List String) :
    Option String × Option String :=
  (if call.data.allocates .inet4 then nextDistinctCandidate generatedIpv4 call.attemptedIpv4
    else none,
   if call.data.allocates .inet6 then nextDistinctCandidate generatedIpv6 call.attemptedIpv6
    else none)

/-- The call after an attempt that is to be repeated, while there are attempts left. -/
def ReserveCall.again (call : ReserveCall) : ReserveCall :=
  { call with
      attempt := call.attempt + 1
      outcome :=
        if call.attempt + 1 < maxAttempts then none
        else some (.error s!"Unable to reserve a unique IP address after {maxAttempts} attempts") }

inductive IpEvent
  | createInstance (id hostId : ℕ)
  | reserve (data : ReserveInstanceIpAddressesData)
  /-- the next attempt of a call; the database may refuse to serialize it -/
  | attempt (k : ℕ) (generatedIpv4 generatedIpv6 : List String) (refused : Bool)
  | claimDeletion (id : ℕ)
  /-- `ipAddress.deleteMany` of a deletion -/
  | release (id : ℕ)

/-- What an attempt makes of its call and of the tables. -/
def IpWorld.attempt (w : IpWorld) (k : ℕ) (call : ReserveCall) (candidates : Option String × Option String)
    (refused : Bool) : IpWorld :=
  let tried : ReserveCall :=
    { call with
        attemptedIpv4 := call.attemptedIpv4 ++ candidates.1.toList
        attemptedIpv6 := call.attemptedIpv6 ++ candidates.2.toList }
  if refused then { w with calls := w.calls.set k tried.again }
  else
    match reserveTransaction w call.data candidates.1 candidates.2 with
    | .error .uniqueConflict => { w with calls := w.calls.set k tried.again }
    | .error (.thrown message) =>
        { w with calls := w.calls.set k { tried with outcome := some (.error message) } }
    | .ok (committed, reserved) =>
        { committed with
            calls := w.calls.set k
              { tried with
                  outcome := some (.ok reserved)
                  existing :=
                    { ipv4 := primaryAddress w.ipAddresses call.data.instanceId .inet4
                      ipv6 := primaryAddress w.ipAddresses call.data.instanceId .inet6 } } }

/-- Whether an instance has a primary address. -/
def IpWorld.holds (w : IpWorld) (id : ℕ) : Bool :=
  w.ipAddresses.any fun r => r.instanceId == id && r.isPrimary

def ipStep (w : IpWorld) : IpEvent → Option IpWorld
  | .createInstance id hostId =>
      match w.instances id with
      | some _ => none
      | none =>
          some { w with
            instances := Function.update w.instances id (some { hostId, status := .creating }) }
  | .reserve data => some { w with calls := w.calls ++ [{ data }] }
  | .attempt k generatedIpv4 generatedIpv6 refused =>
      match w.calls[k]? with
      | none => none
      | some call =>
          match call.outcome with
          | some _ => none
          | none => some (w.attempt k call (call.candidates generatedIpv4 generatedIpv6) refused)
  | .claimDeletion id =>
      match w.instances id with
      | none => none
      | some inst =>
          some { w with
            instances := Function.update w.instances id (some { inst with status := .deleted }) }
  | .release id =>
      match w.instances id with
      | none => none
      | some inst =>
          if inst.status = .deleted then
            some { w with
              ipAddresses := w.ipAddresses.filter fun r => r.instanceId != id
              releasedHolding :=
                if w.holds id then id :: w.releasedHolding else w.releasedHolding }
          else none

/-! ## The property -/

/-- An instance holds an address in a family. -/
def HoldsAddress (rows : List IpAddress) (i : ℕ) (type : IpType) (address : String) : Prop :=
  ∃ r ∈ rows, r.instanceId = i ∧ r.isPrimary = true ∧ r.type = type ∧ r.address = address

/-- No two rows share host and address or an IPv6 address; the fields of the instances, except
for some that have been deleted, are their primary rows; and a call returns what it has found. -/
structure AddressesConsistent (deleted : List ℕ) (w : IpWorld) : Prop where
  owned : ∀ r ∈ w.ipAddresses, (w.instances r.instanceId).isSome
  unique : (w.ipAddresses.map fun r => (r.hostId, r.address)).Nodup
  routed : ((w.ipAddresses.filter fun r => r.type == .inet6).map IpAddress.address).Nodup
  fields : ∀ i inst, w.instances i = some inst → i ∉ deleted → ∀ type address,
    inst.field type = some address ↔ HoldsAddress w.ipAddresses i type address
  deleted : ∀ i ∈ deleted, ∃ inst, w.instances i = some inst ∧ inst.status = .deleted
  retries : ∀ call ∈ w.calls, ∀ reserved, call.outcome = some (.ok reserved) →
    ∀ type address, call.existing.field type = some address → reserved.field type = some address

/-- An attempt that may commit asks for the families that its instance has an address in, and
brings no IPv6 address that another host has. -/
def keepsAddresses (w : IpWorld) : IpEvent → Bool
  | .attempt k generatedIpv4 generatedIpv6 _ =>
      match w.calls[k]? with
      | none => true
      | some call =>
          [IpType.inet4, .inet6].all (fun type =>
            (primaryAddress w.ipAddresses call.data.instanceId type).isNone
              || call.data.allocates type)
          && w.ipAddresses.all fun r =>
              r.type != .inet6 || r.hostId == call.data.hostId
                || (call.candidates generatedIpv4 generatedIpv6).2 != some r.address
  | _ => true

section Rows

variable {rows rows' : List IpAddress} {i : ℕ} {type : IpType} {address : String}

theorem holdsAddress_of_primary (h : primaryAddress rows i type = some address) :
    HoldsAddress rows i type address := by
  obtain ⟨r, hfound, rfl⟩ := Option.map_eq_some_iff.mp h
  have hr : r.instanceId = i ∧ r.isPrimary = true ∧ r.type = type := by
    simpa [and_assoc] using List.find?_some hfound
  exact ⟨r, List.mem_of_find?_eq_some hfound, hr.1, hr.2.1, hr.2.2, rfl⟩

theorem not_holdsAddress_of_primary (h : primaryAddress rows i type = none) :
    ¬HoldsAddress rows i type address := by
  rintro ⟨r, hr, hid, hprimary, htype, -⟩
  have hnone := List.find?_eq_none.mp (Option.map_eq_none_iff.mp h) r hr
  simp [hid, hprimary, htype] at hnone

/-- A row that is created has no other under its host and address. -/
theorem createIpAddressRow_spec {row : IpAddress} (h : createIpAddressRow rows row = .ok rows') :
    rows' = rows ++ [row] ∧ (row.hostId, row.address) ∉ rows.map fun r => (r.hostId, r.address) := by
  unfold createIpAddressRow at h
  split at h
  · cases h
  · rename_i hfree
    refine ⟨(Except.ok.inj h).symm, fun hmem => hfree ?_⟩
    obtain ⟨r, hr, heq⟩ := List.mem_map.mp hmem
    obtain ⟨hhost, haddress⟩ := Prod.mk.inj heq
    exact List.any_eq_true.mpr ⟨r, hr, by simp [hhost, haddress]⟩

/-- The rows that a family gets. -/
def newRows (existing address : Option String) (row : String → IpAddress) : List IpAddress :=
  match existing, address with
  | none, some address => [row address]
  | _, _ => []

theorem reserveAddress_spec {existing chosen : Option String} {row : String → IpAddress}
    (h : reserveAddress rows existing chosen row = .ok rows') :
    rows' = rows ++ newRows existing chosen row
      ∧ ((rows.map fun r => (r.hostId, r.address)).Nodup →
        (rows'.map fun r => (r.hostId, r.address)).Nodup) := by
  unfold reserveAddress at h
  split at h
  · obtain ⟨rfl, hfresh⟩ := createIpAddressRow_spec h
    refine ⟨rfl, fun hunique => ?_⟩
    rw [List.map_append, List.map_singleton]
    exact List.nodup_append.mpr ⟨hunique, List.nodup_singleton _, fun a ha b hb hab => hfresh
      (by rw [← List.mem_singleton.mp hb, ← hab]; exact ha)⟩
  · rename_i hnone
    obtain rfl := Except.ok.inj h
    refine ⟨?_, fun hunique => hunique⟩
    unfold newRows
    split
    · exact (hnone _ rfl rfl).elim
    · rw [List.append_nil]

end Rows

/-! ## The transaction keeps the property -/

section Transaction

variable {w w' : IpWorld} {data : ReserveInstanceIpAddressesData}
  {ipv4Candidate ipv6Candidate : Option String} {reserved : ReservedInstanceIpAddresses}
  {deleted : List ℕ} {type : IpType} {address : String}

/-- What a transaction that commits has found and written. -/
structure Reserves (w w' : IpWorld) (data : ReserveInstanceIpAddressesData)
    (candidate : IpType → Option String) (reserved : ReservedInstanceIpAddresses) : Prop where
  calls : w'.calls = w.calls
  releasedHolding : w'.releasedHolding = w.releasedHolding
  instances : ∃ inst, w.instances data.instanceId = some inst ∧ inst.status ≠ .deleted ∧
    w'.instances = Function.update w.instances data.instanceId
      (some { inst with ipv4 := reserved.ipv4, ipv6 := reserved.ipv6 })
  chosen : ∀ type, reserved.field type
    = data.chosen type (primaryAddress w.ipAddresses data.instanceId type) (candidate type)
  rows : w'.ipAddresses = w.ipAddresses
    ++ newRows (primaryAddress w.ipAddresses data.instanceId .inet4) reserved.ipv4 (data.row .inet4)
    ++ newRows (primaryAddress w.ipAddresses data.instanceId .inet6) reserved.ipv6 (data.row .inet6)
  unique : (w.ipAddresses.map fun r => (r.hostId, r.address)).Nodup →
    (w'.ipAddresses.map fun r => (r.hostId, r.address)).Nodup

/-- The candidates by family. -/
def candidateOf (ipv4Candidate ipv6Candidate : Option String) : IpType → Option String
  | .inet4 => ipv4Candidate
  | .inet6 => ipv6Candidate

theorem reserveTransaction_spec
    (h : reserveTransaction w data ipv4Candidate ipv6Candidate = .ok (w', reserved)) :
    Reserves w w' data (candidateOf ipv4Candidate ipv6Candidate) reserved := by
  unfold reserveTransaction at h
  split at h
  · cases h
  · rename_i inst hinst
    split at h
    · cases h
    · split at h
      · cases h
      · rename_i hlive
        dsimp only at h
        split at h
        · cases h
        · split at h
          · cases h
          · split at h
            · cases h
            · rename_i rows hrows
              split at h
              · cases h
              · rename_i rows' hrows'
                obtain ⟨rfl, rfl⟩ := Prod.mk.inj (Except.ok.inj h)
                obtain ⟨rfl, hunique⟩ := reserveAddress_spec hrows
                obtain ⟨rfl, hunique'⟩ := reserveAddress_spec hrows'
                refine ⟨rfl, rfl, ⟨inst, hinst, hlive, rfl⟩, fun type => ?_, rfl,
                  fun h => hunique' (hunique h)⟩
                cases type <;> rfl

/-- The rows that a family gets are those of its chosen address, unless it had one. -/
theorem mem_newRows {existing chosen : Option String} {row : String → IpAddress} {r : IpAddress} :
    r ∈ newRows existing chosen row ↔ existing = none ∧ ∃ address, chosen = some address ∧
      r = row address := by
  unfold newRows
  split
  · simp
  · rename_i hnot
    simp only [List.not_mem_nil, false_iff]
    rintro ⟨hnone, address, hchosen, -⟩
    exact hnot address hnone hchosen

theorem mem_newRows_field (h : Reserves w w' data (candidateOf ipv4Candidate ipv6Candidate) reserved)
    {r : IpAddress} (hr : r ∈ w'.ipAddresses) :
    r ∈ w.ipAddresses ∨ ∃ type address,
      primaryAddress w.ipAddresses data.instanceId type = none ∧
        reserved.field type = some address ∧ r = data.row type address := by
  rw [h.rows] at hr
  rcases List.mem_append.mp hr with hr | hr
  · rcases List.mem_append.mp hr with hr | hr
    · exact .inl hr
    · obtain ⟨hnone, address, hchosen, rfl⟩ := mem_newRows.mp hr
      exact .inr ⟨.inet4, address, hnone, hchosen, rfl⟩
  · obtain ⟨hnone, address, hchosen, rfl⟩ := mem_newRows.mp hr
    exact .inr ⟨.inet6, address, hnone, hchosen, rfl⟩

theorem mem_of_newRows (h : Reserves w w' data (candidateOf ipv4Candidate ipv6Candidate) reserved)
    (hnone : primaryAddress w.ipAddresses data.instanceId type = none)
    (hchosen : reserved.field type = some address) : data.row type address ∈ w'.ipAddresses := by
  rw [h.rows]
  cases type with
  | inet4 =>
    exact List.mem_append_left _ (List.mem_append_right _
      (mem_newRows.mpr ⟨hnone, address, hchosen, rfl⟩))
  | inet6 => exact List.mem_append_right _ (mem_newRows.mpr ⟨hnone, address, hchosen, rfl⟩)

/-- What is returned is what has been found, where the family is asked for. -/
theorem Reserves.kept (h : Reserves w w' data (candidateOf ipv4Candidate ipv6Candidate) reserved)
    (hasked : (primaryAddress w.ipAddresses data.instanceId type).isNone
      || data.allocates type)
    (hfound : primaryAddress w.ipAddresses data.instanceId type = some address) :
    reserved.field type = some address := by
  have hallocates : data.allocates type = true := by simpa [hfound] using hasked
  rw [h.chosen, ReserveInstanceIpAddressesData.chosen, if_pos hallocates, hfound]
  rfl

/-- The fields of the instance are its rows after the transaction, if they were before. -/
theorem Reserves.fields
    (h : Reserves w w' data (candidateOf ipv4Candidate ipv6Candidate) reserved)
    (hasked : ∀ type, (primaryAddress w.ipAddresses data.instanceId type).isNone
      || data.allocates type)
    (hbefore : ∀ inst, w.instances data.instanceId = some inst → ∀ type address,
      inst.field type = some address ↔ HoldsAddress w.ipAddresses data.instanceId type address)
    (type : IpType) (address : String) :
    reserved.field type = some address ↔
      HoldsAddress w'.ipAddresses data.instanceId type address := by
  obtain ⟨inst, hinst, -, -⟩ := h.instances
  cases hfound : primaryAddress w.ipAddresses data.instanceId type with
  | some found =>
    have hreserved := h.kept (hasked type) hfound
    have hfield : inst.field type = some found :=
      (hbefore inst hinst type found).mpr (holdsAddress_of_primary hfound)
    rw [hreserved, ← hfield]
    rw [hbefore inst hinst type address]
    constructor
    · rintro ⟨r, hr, hrest⟩
      refine ⟨r, ?_, hrest⟩
      rw [h.rows]
      exact List.mem_append_left _ (List.mem_append_left _ hr)
    · rintro ⟨r, hr, hid, hprimary, htype, haddress⟩
      rcases mem_newRows_field h hr with hr | ⟨type', address', hnone, -, rfl⟩
      · exact ⟨r, hr, hid, hprimary, htype, haddress⟩
      · have : type' = type := htype
        rw [this, hfound] at hnone
        cases hnone
  | none =>
    constructor
    · intro hchosen
      exact ⟨_, mem_of_newRows h hfound hchosen, rfl, rfl, rfl, rfl⟩
    · rintro ⟨r, hr, hid, hprimary, htype, haddress⟩
      rcases mem_newRows_field h hr with hr | ⟨type', address', -, hchosen, rfl⟩
      · exact absurd ⟨r, hr, hid, hprimary, htype, haddress⟩
          (not_holdsAddress_of_primary hfound)
      · have htype' : type' = type := htype
        have haddress' : address' = address := haddress
        rw [← htype', ← haddress']
        exact hchosen

/-- The new IPv6 row differs from all others: from those of its host by the unique key, and
from those of other hosts if the candidate does. -/
theorem Reserves.routed
    (h : Reserves w w' data (candidateOf ipv4Candidate ipv6Candidate) reserved)
    (hunique : (w.ipAddresses.map fun r => (r.hostId, r.address)).Nodup)
    (hrouted : ((w.ipAddresses.filter fun r => r.type == .inet6).map IpAddress.address).Nodup)
    (hothers : ∀ r ∈ w.ipAddresses, r.type = .inet6 → r.hostId ≠ data.hostId →
      ipv6Candidate ≠ some r.address) :
    ((w'.ipAddresses.filter fun r => r.type == .inet6).map IpAddress.address).Nodup := by
  have hrows := h.rows
  have hunique' := h.unique hunique
  have hv4 : ((newRows (primaryAddress w.ipAddresses data.instanceId .inet4) reserved.ipv4
      (data.row .inet4)).filter fun r => r.type == .inet6) = [] := by
    refine List.filter_eq_nil_iff.mpr fun r hr => ?_
    obtain ⟨-, address, -, rfl⟩ := mem_newRows.mp hr
    simp [ReserveInstanceIpAddressesData.row]
  rw [hrows] at hunique'
  rw [hrows, List.filter_append, List.filter_append, hv4, List.append_nil]
  cases hfound : primaryAddress w.ipAddresses data.instanceId .inet6 with
  | some found => simpa [newRows] using hrouted
  | none =>
    cases hchosen : reserved.ipv6 with
    | none => simpa [newRows] using hrouted
    | some address =>
      simp only [hfound, hchosen, newRows] at hunique' ⊢
      have hfresh : ∀ r ∈ w.ipAddresses, r.type = .inet6 → r.address ≠ address := by
        intro r hr htype haddress
        by_cases hhost : r.hostId = data.hostId
        · rw [List.map_append] at hunique'
          refine (List.disjoint_of_nodup_append hunique')
            (List.mem_map_of_mem (List.mem_append_left _ hr)) ?_
          simp [ReserveInstanceIpAddressesData.row, hhost, haddress]
        · have hcandidate : ipv6Candidate = some address := by
            have hc := h.chosen .inet6
            rw [hfound] at hc
            have hc' : some address = data.chosen .inet6 none ipv6Candidate :=
              hchosen.symm.trans hc
            unfold ReserveInstanceIpAddressesData.chosen at hc'
            split at hc'
            · simpa using hc'.symm
            · cases hc'
          exact hothers r hr htype hhost (haddress ▸ hcandidate)
      rw [List.map_append]
      refine List.nodup_append.mpr ⟨hrouted, ?_, ?_⟩
      · simp [ReserveInstanceIpAddressesData.row]
      · intro a ha b hb hab
        obtain ⟨r, hr, rfl⟩ := List.mem_map.mp ha
        obtain ⟨hmem, htype⟩ := List.mem_filter.mp hr
        have hb' : b = address := by
          simpa [ReserveInstanceIpAddressesData.row] using hb
        exact hfresh r hmem (by simpa using htype) (hab.trans hb')

/-- A transaction that commits keeps the rows and the fields consistent. -/
theorem Reserves.consistent
    (h : Reserves w w' data (candidateOf ipv4Candidate ipv6Candidate) reserved)
    (hinv : AddressesConsistent deleted w)
    (hasked : ∀ type, (primaryAddress w.ipAddresses data.instanceId type).isNone
      || data.allocates type)
    (hothers : ∀ r ∈ w.ipAddresses, r.type = .inet6 → r.hostId ≠ data.hostId →
      ipv6Candidate ≠ some r.address) : AddressesConsistent deleted w' := by
  obtain ⟨inst, hinst, hlive, hinstances⟩ := h.instances
  have hnot : data.instanceId ∉ deleted := by
    intro hmem
    obtain ⟨inst', hinst', hdeleted⟩ := hinv.deleted _ hmem
    obtain rfl := Option.some.inj (hinst.symm.trans hinst')
    exact hlive hdeleted
  refine ⟨fun r hr => ?_, h.unique hinv.unique, h.routed hinv.unique hinv.routed hothers, ?_, ?_, ?_⟩
  · rw [hinstances]
    by_cases hid : r.instanceId = data.instanceId
    · rw [hid, Function.update_self]
      rfl
    · rw [Function.update_of_ne hid]
      rcases mem_newRows_field h hr with hr | ⟨_, _, -, -, rfl⟩
      · exact hinv.owned r hr
      · exact absurd rfl hid
  · intro i row hrow hi type address
    rw [hinstances] at hrow
    by_cases hid : i = data.instanceId
    · subst hid
      rw [Function.update_self] at hrow
      obtain rfl := Option.some.inj hrow
      have hfields := h.fields hasked (fun inst hinst => hinv.fields _ inst hinst hnot) type address
      cases type <;> exact hfields
    · rw [Function.update_of_ne hid] at hrow
      rw [hinv.fields i row hrow hi type address]
      constructor
      · rintro ⟨r, hr, hrest⟩
        refine ⟨r, ?_, hrest⟩
        rw [h.rows]
        exact List.mem_append_left _ (List.mem_append_left _ hr)
      · rintro ⟨r, hr, hid', hrest⟩
        rcases mem_newRows_field h hr with hr | ⟨_, _, -, -, rfl⟩
        · exact ⟨r, hr, hid', hrest⟩
        · exact absurd hid'.symm hid
  · intro i hi
    obtain ⟨row, hrow, hdeleted⟩ := hinv.deleted i hi
    have hid : i ≠ data.instanceId := fun heq => hnot (heq ▸ hi)
    exact ⟨row, by rw [hinstances, Function.update_of_ne hid]; exact hrow, hdeleted⟩
  · rw [h.calls]
    exact hinv.retries

end Transaction

/-! ## Runs -/

section Runs

variable {w w' : IpWorld} {deleted : List ℕ} {k : ℕ} {call : ReserveCall} {event : IpEvent}

/-- The calls bear on nothing but the returned addresses. -/
theorem AddressesConsistent.setCall (h : AddressesConsistent deleted w)
    (hcall : ∀ reserved, call.outcome = some (.ok reserved) → ∀ type address,
      call.existing.field type = some address → reserved.field type = some address) :
    AddressesConsistent deleted { w with calls := w.calls.set k call } := by
  refine ⟨h.owned, h.unique, h.routed, h.fields, h.deleted, fun other hother => ?_⟩
  rcases List.mem_or_eq_of_mem_set hother with hother | rfl
  · exact h.retries other hother
  · exact hcall

theorem ReserveCall.again_outcome (reserved : ReservedInstanceIpAddresses) :
    call.again.outcome ≠ some (.ok reserved) := by
  unfold ReserveCall.again
  split <;> simp

/-- An attempt that the guard admits keeps the property. -/
theorem AddressesConsistent.attempt (h : AddressesConsistent w.releasedHolding w) (k : ℕ)
    (candidates : Option String × Option String) (refused : Bool)
    (hasked : ∀ type, (primaryAddress w.ipAddresses call.data.instanceId type).isNone
      || call.data.allocates type)
    (hothers : ∀ r ∈ w.ipAddresses, r.type = .inet6 → r.hostId ≠ call.data.hostId →
      candidates.2 ≠ some r.address) :
    AddressesConsistent w.releasedHolding (w.attempt k call candidates refused)
      ∧ (w.attempt k call candidates refused).releasedHolding = w.releasedHolding := by
  unfold IpWorld.attempt
  dsimp only
  split
  · exact ⟨h.setCall fun reserved hoc => absurd hoc (ReserveCall.again_outcome reserved), rfl⟩
  · split
    · exact ⟨h.setCall fun reserved hoc => absurd hoc (ReserveCall.again_outcome reserved), rfl⟩
    · exact ⟨h.setCall fun reserved hoc => by simp at hoc, rfl⟩
    · rename_i committed reserved hcommit
      have hspec := reserveTransaction_spec hcommit
      refine ⟨?_, hspec.releasedHolding⟩
      have hcommitted := hspec.consistent h hasked hothers
      rw [← hspec.calls]
      refine hcommitted.setCall fun returned hreturned type address hfound => ?_
      obtain rfl : reserved = returned := by simpa using hreturned
      refine hspec.kept (hasked type) ?_
      cases type <;> exact hfound

theorem AddressesConsistent.step (h : AddressesConsistent w.releasedHolding w)
    (hok : keepsAddresses w event = true) (hstep : ipStep w event = some w') :
    AddressesConsistent w'.releasedHolding w' := by
  cases event with
  | createInstance id hostId =>
    simp only [ipStep] at hstep
    split at hstep
    · cases hstep
    · rename_i hnew
      obtain rfl := Option.some.inj hstep
      have hrow : ∀ r ∈ w.ipAddresses, r.instanceId ≠ id := by
        intro r hr heq
        have howned := h.owned r hr
        rw [heq, hnew] at howned
        exact absurd howned (by simp)
      refine ⟨fun r hr => ?_, h.unique, h.routed, ?_, ?_, h.retries⟩
      · show (Function.update w.instances id _ r.instanceId).isSome
        rw [Function.update_of_ne (hrow r hr)]
        exact h.owned r hr
      · intro i inst hinst hi type address
        by_cases hid : i = id
        · subst hid
          obtain rfl : { hostId, status := .creating } = inst := by simpa using hinst
          constructor
          · cases type <;> intro hfield <;> cases hfield
          · rintro ⟨r, hr, hid, -⟩
            exact absurd hid (hrow r hr)
        · refine h.fields i inst ?_ hi type address
          simpa [Function.update_of_ne hid] using hinst
      · intro i hi
        obtain ⟨inst, hinst, hdeleted⟩ := h.deleted i hi
        have hid : i ≠ id := by
          rintro rfl
          rw [hnew] at hinst
          cases hinst
        exact ⟨inst, by simpa [Function.update_of_ne hid] using hinst, hdeleted⟩
  | reserve data =>
    obtain rfl := Option.some.inj hstep
    refine ⟨h.owned, h.unique, h.routed, h.fields, h.deleted, fun call hcall => ?_⟩
    rcases List.mem_append.mp hcall with hcall | hcall
    · exact h.retries call hcall
    · obtain rfl := List.mem_singleton.mp hcall
      exact fun reserved hoc => by cases hoc
  | attempt k generatedIpv4 generatedIpv6 refused =>
    simp only [ipStep] at hstep
    split at hstep
    · cases hstep
    · rename_i call hcall
      split at hstep
      · cases hstep
      · obtain rfl := Option.some.inj hstep
        simp only [keepsAddresses, hcall, Bool.and_eq_true, List.all_eq_true] at hok
        obtain ⟨hasked, hothers⟩ := hok
        obtain ⟨hconsistent, hreleased⟩ := h.attempt k
          (call.candidates generatedIpv4 generatedIpv6) refused
          (fun type => hasked type (by cases type <;> simp)) fun r hr htype hhost hsame => by
            simpa [htype, hhost, hsame] using hothers r hr
        rw [hreleased]
        exact hconsistent
  | claimDeletion id =>
    simp only [ipStep] at hstep
    split at hstep
    · cases hstep
    · rename_i row hrow
      obtain rfl := Option.some.inj hstep
      refine ⟨fun r hr => ?_, h.unique, h.routed, ?_, ?_, h.retries⟩
      · show (Function.update w.instances id _ r.instanceId).isSome
        by_cases hid : r.instanceId = id
        · rw [hid, Function.update_self]
          rfl
        · rw [Function.update_of_ne hid]
          exact h.owned r hr
      · intro i inst hinst hi type address
        by_cases hid : i = id
        · subst hid
          obtain rfl : { row with status := .deleted } = inst := by simpa using hinst
          rw [← h.fields i row hrow hi type address]
          cases type <;> rfl
        · refine h.fields i inst ?_ hi type address
          simpa [Function.update_of_ne hid] using hinst
      · intro i hi
        obtain ⟨inst, hinst, hdeleted⟩ := h.deleted i hi
        by_cases hid : i = id
        · subst hid
          exact ⟨{ row with status := .deleted }, Function.update_self .., rfl⟩
        · exact ⟨inst, by simpa [Function.update_of_ne hid] using hinst, hdeleted⟩
  | release id =>
    simp only [ipStep] at hstep
    split at hstep
    · cases hstep
    · rename_i row hrow
      split at hstep
      · rename_i hdeleted
        obtain rfl := Option.some.inj hstep
        have hsub : (w.ipAddresses.filter fun r => r.instanceId != id).Sublist w.ipAddresses :=
          List.filter_sublist
        refine ⟨fun r hr => h.owned r (List.mem_filter.mp hr).1, h.unique.sublist (hsub.map _),
          h.routed.sublist ((hsub.filter _).map _), ?_, ?_, h.retries⟩
        · intro i inst hinst hi type address
          have hi' : i ∉ w.releasedHolding ∧ (w.holds id = true → i ≠ id) := by
            dsimp only at hi
            split at hi
            · exact ⟨fun h => hi (.tail _ h), fun _ h => hi (h ▸ List.mem_cons_self)⟩
            · rename_i hfree
              exact ⟨hi, fun h => absurd h hfree⟩
          rw [h.fields i inst hinst hi'.1 type address]
          by_cases hid : i = id
          · subst hid
            -- the instance held nothing, and so has lost nothing
            have hnone : ¬HoldsAddress w.ipAddresses i type address := by
              rintro ⟨r, hr, hid, hprimary, -⟩
              refine hi'.2 (List.any_eq_true.mpr ⟨r, hr, ?_⟩) rfl
              simp [hid, hprimary]
            refine iff_of_false hnone ?_
            rintro ⟨r, hr, hrest⟩
            exact hnone ⟨r, (List.mem_filter.mp hr).1, hrest⟩
          · constructor
            · rintro ⟨r, hr, rfl, hrest⟩
              exact ⟨r, List.mem_filter.mpr ⟨hr, by simpa using hid⟩, rfl, hrest⟩
            · rintro ⟨r, hr, hrest⟩
              exact ⟨r, (List.mem_filter.mp hr).1, hrest⟩
        · intro i hi
          dsimp only at hi
          split at hi
          · rcases List.mem_cons.mp hi with rfl | hi
            · exact ⟨row, hrow, hdeleted⟩
            · exact h.deleted i hi
          · exact h.deleted i hi
      · cases hstep

end Runs

/-! ## Two runs -/

/-- Nothing is reserved yet. -/
def emptyIpWorld : IpWorld where
  instances := fun _ => none

theorem emptyIpWorld_consistent : AddressesConsistent [] emptyIpWorld where
  owned := by simp [emptyIpWorld]
  unique := List.nodup_nil
  routed := List.nodup_nil
  fields := fun _ _ h => by cases h
  deleted := by simp
  retries := by simp [emptyIpWorld]

/-- A first reservation, and another that loses a race for its address and tries again. -/
def racingReservations : List IpEvent :=
  [.createInstance 1 1, .createInstance 2 1,
    .reserve ⟨1, 1, true, some "2001:db8::/64"⟩, .reserve ⟨2, 1, true, some "2001:db8::/64"⟩,
    .attempt 0 ["10.10.1.5"] ["2001:db8::5"] false,
    .attempt 1 ["10.10.1.5"] ["2001:db8::6"] false,
    .attempt 1 ["10.10.1.5", "10.10.1.6"] ["2001:db8::7"] false]

/-- Two hosts route the same subnet, and one of them loses it before a creation is tried again. -/
def lostSubnet : List IpEvent :=
  [.createInstance 1 1, .createInstance 2 2,
    .reserve ⟨1, 1, true, some "2001:db8::/124"⟩, .reserve ⟨2, 2, true, some "2001:db8::/124"⟩,
    .attempt 0 ["10.10.1.5"] ["2001:db8::5"] false,
    .attempt 1 ["10.10.1.5"] ["2001:db8::5"] false,
    .reserve ⟨1, 1, true, none⟩, .attempt 2 ["10.10.1.9"] [] false]

end Incudal
