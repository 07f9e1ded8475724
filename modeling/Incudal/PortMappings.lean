/-
# `PortMappings` — public ports of a host, allocated and reserved

An allocation picks ports of the host's range that no mapping uses; where fewer
are free than asked for, it returns those, and its callers compare the numbers.
A reservation writes all its mappings in one transaction, under a lock of the
host and after looking for conflicts; other writers take no lock, and the
unique index on host, protocol and port decides between them.

A reservation whose devices cannot be made releases its mappings by their ids.
Ids are never used twice, so it drops no row of anybody else, whatever happened
in between (`ports_kept`).
-/
import Incudal.Basic
import Incudal.Lib.Keyed
import Incudal.Lib.Machine
import Mathlib.Data.List.Nodup
import Mathlib.Data.List.Range
import Mathlib.Data.List.Sort

namespace Incudal

/-! ## Rows -/

inductive PortProtocol
  | tcp | udp
deriving DecidableEq, Repr

/-- What is asked of a reservation for one port. -/
structure ReservePortMappingInput where
  instanceId : ℕ
  hostId : ℕ
  protocol : PortProtocol
  publicPort : ℕ
  privatePort : ℕ
  remark : Option String := none
deriving DecidableEq, Repr

/-- A row of `port_mappings`. -/
structure PortMapping extends ReservePortMappingInput where
  id : ℕ
deriving DecidableEq, Repr

/-- The columns of the unique index. -/
abbrev PortTriple := ℕ × PortProtocol × ℕ

def ReservePortMappingInput.triple (item : ReservePortMappingInput) : PortTriple :=
  (item.hostId, item.protocol, item.publicPort)

def PortMapping.triple (row : PortMapping) : PortTriple := row.toReservePortMappingInput.triple

/-- `remark || null`. -/
def ReservePortMappingInput.stored (item : ReservePortMappingInput) : ReservePortMappingInput :=
  { item with remark := item.remark.filter (· ≠ "") }

/-- `nat_port_start` and `nat_port_end` of a host; a bound that is 0 counts as not set. -/
structure NatPorts where
  natPortStart : Option ℕ := none
  natPortEnd : Option ℕ := none
deriving DecidableEq, Repr

/-- The range of a host, where both bounds are set. -/
def NatPorts.range (host : NatPorts) : Option (ℕ × ℕ) :=
  match host.natPortStart, host.natPortEnd with
  | some portStart, some portEnd =>
      if portStart = 0 ∨ portEnd = 0 then none else some (portStart, portEnd)
  | _, _ => none

/-! ## Allocation -/

/-- The ports of a host that have a mapping for one of the protocols. -/
def usedPorts (mappings : List PortMapping) (hostId : ℕ) (protocols : List PortProtocol) : List ℕ :=
  (mappings.filter fun row => row.hostId == hostId && protocols.contains row.protocol).map
    (·.publicPort)

/-- The ports of a range that are not used, in order. -/
def availablePorts (range : ℕ × ℕ) (used : List ℕ) : List ℕ :=
  (List.range' range.1 (range.2 + 1 - range.1)).filter fun port => !used.contains port

/-- The loop that shuffles: the place `i` is swapped with one at or before it, down to 1. -/
def shuffle {α : Type*} (random : ℕ → ℕ) : ℕ → Array α → Array α
  | 0, xs => xs
  | i + 1, xs => shuffle random i (xs.swapIfInBounds (i + 1) (random (i + 1) % (i + 2)))

def shuffled {α : Type*} (random : ℕ → ℕ) (xs : List α) : List α :=
  (shuffle random (xs.length - 1) xs.toArray).toList

/-- The protocols whose mappings count. -/
def checkedProtocols (protocol : PortProtocol) (checkBothProtocols : Bool) : List PortProtocol :=
  if checkBothProtocols then [.tcp, .udp] else [protocol]

section Allocators

variable (mappings : List PortMapping) (host : NatPorts) (hostId : ℕ)

def allocatePort (protocol : PortProtocol) (random : ℕ) : Option ℕ :=
  match host.range with
  | none => none
  | some range =>
      let available := availablePorts range (usedPorts mappings hostId [protocol])
      if available = [] then none else available[random % available.length]?

def allocatePorts (count : ℕ) (protocol : PortProtocol) (checkBothProtocols : Bool)
    (random : ℕ → ℕ) : List ℕ :=
  match host.range with
  | none => []
  | some range =>
      let protocols := checkedProtocols protocol checkBothProtocols
      let available := availablePorts range (usedPorts mappings hostId protocols)
      if available.length < count then shuffled random available
      else (shuffled random available).take count

def suggestAvailablePorts (count : ℕ) (protocol : PortProtocol) (excludePorts : List ℕ)
    (checkBothProtocols : Bool) : List ℕ :=
  match host.range with
  | none => []
  | some range =>
      let protocols := checkedProtocols protocol checkBothProtocols
      let available :=
        availablePorts range (usedPorts mappings hostId protocols ++ excludePorts)
      if available.length ≤ count then available else available.take count

end Allocators

/-- What an allocator may return: distinct ports of the range that are not used, as many as were
asked for unless fewer are free. -/
structure Allocates (range : ℕ × ℕ) (used : List ℕ) (count : ℕ) (ports : List ℕ) : Prop where
  distinct : ports.Nodup
  inRange : ∀ port ∈ ports, range.1 ≤ port ∧ port ≤ range.2
  unused : ∀ port ∈ ports, port ∉ used
  enough : ports.length = min count (availablePorts range used).length

section Allocation

variable {mappings : List PortMapping} {host : NatPorts} {hostId count : ℕ} {range : ℕ × ℕ}
  {used ports : List ℕ} {protocol : PortProtocol} {both : Bool}

theorem mem_availablePorts {port : ℕ} :
    port ∈ availablePorts range used ↔ (range.1 ≤ port ∧ port ≤ range.2) ∧ port ∉ used := by
  simp only [availablePorts, List.mem_filter, List.mem_range'_1, Bool.not_eq_true',
    List.contains_eq_mem, decide_eq_false_iff_not]
  refine and_congr_left fun _ => ?_
  omega

theorem nodup_availablePorts : (availablePorts range used).Nodup :=
  (List.nodup_range').filter _

theorem shuffle_perm {α : Type*} (random : ℕ → ℕ) (n : ℕ) (xs : Array α) :
    (shuffle random n xs).toList.Perm xs.toList := by
  induction n generalizing xs with
  | zero => exact .refl _
  | succ n ih =>
      refine (ih _).trans ?_
      simp only [Array.swapIfInBounds_def]
      split
      · split
        · exact (Array.swap_perm _ _).toList
        · exact .refl _
      · exact .refl _

theorem shuffled_perm {α : Type*} (random : ℕ → ℕ) (xs : List α) : (shuffled random xs).Perm xs :=
  shuffle_perm random _ _

/-- The first of the free ports, in any order. -/
theorem Allocates.take (h : ports.Perm (availablePorts range used)) (count : ℕ) :
    Allocates range used count (ports.take count) where
  distinct := (h.nodup_iff.mpr nodup_availablePorts).sublist (List.take_sublist _ _)
  inRange := fun _ hport => (mem_availablePorts.mp (h.mem_iff.mp (List.mem_of_mem_take hport))).1
  unused := fun _ hport => (mem_availablePorts.mp (h.mem_iff.mp (List.mem_of_mem_take hport))).2
  enough := by rw [List.length_take, h.length_eq]

theorem allocatePorts_spec (h : host.range = some range) (random : ℕ → ℕ) :
    Allocates range (usedPorts mappings hostId (checkedProtocols protocol both)) count
      (allocatePorts mappings host hostId count protocol both random) := by
  simp only [allocatePorts, h]
  have hperm := shuffled_perm random
    (availablePorts range (usedPorts mappings hostId (checkedProtocols protocol both)))
  split
  · rename_i hfew
    rw [← List.take_of_length_le (hperm.length_eq.trans_le hfew.le)]
    exact .take hperm count
  · exact .take hperm count

theorem suggestAvailablePorts_spec (h : host.range = some range) (excludePorts : List ℕ) :
    Allocates range (usedPorts mappings hostId (checkedProtocols protocol both) ++ excludePorts)
      count (suggestAvailablePorts mappings host hostId count protocol excludePorts both) := by
  simp only [suggestAvailablePorts, h]
  split
  · rename_i hfew
    have htake := Allocates.take (.refl (availablePorts range
      (usedPorts mappings hostId (checkedProtocols protocol both) ++ excludePorts))) count
    rwa [List.take_of_length_le hfew] at htake
  · exact .take (.refl _) count

/-- One port, if one is free. -/
theorem allocatePort_spec (h : host.range = some range) (random : ℕ) :
    Allocates range (usedPorts mappings hostId [protocol]) 1
      (allocatePort mappings host hostId protocol random).toList := by
  simp only [allocatePort, h]
  split
  · rename_i hnone
    refine ⟨List.nodup_nil, by simp, by simp, ?_⟩
    rw [hnone]
    rfl
  · rename_i hsome
    have hpos := List.length_pos_iff.mpr hsome
    have hlt := Nat.mod_lt random hpos
    rw [List.getElem?_eq_getElem hlt]
    have hmem := mem_availablePorts.mp (List.getElem_mem hlt)
    refine ⟨List.nodup_singleton _, ?_, ?_, ?_⟩
    · intro port hport
      obtain rfl := List.mem_singleton.mp hport
      exact hmem.1
    · intro port hport
      obtain rfl := List.mem_singleton.mp hport
      exact hmem.2
    · exact (min_eq_left hpos).symm

end Allocation

/-! ## Requests -/

/-- The body of `POST /:id/ports`; the remark is trimmed. -/
structure PortRequest where
  protocol : PortProtocol
  publicPort : Option ℕ := none
  privatePort : ℕ
  remark : Option String := none
deriving DecidableEq, Repr

/-- The body of `POST /:id/ports/batch`: `protocols` is one of them or both, a mapping its private
and its public port. -/
structure PortBatch where
  protocol : PortProtocol
  both : Bool := false
  privatePortStart : ℕ
  privatePortEnd : ℕ
  publicPortStart : Option ℕ := none
  publicPortEnd : Option ℕ := none
  remark : Option String := none
  portMappings : List (ℕ × ℕ) := []
deriving DecidableEq, Repr

def PortBatch.privatePortCount (body : PortBatch) : ℕ :=
  body.privatePortEnd + 1 - body.privatePortStart

def PortBatch.protocolsToCreate (body : PortBatch) : List PortProtocol :=
  if body.both then [.tcp, .udp] else [body.protocol]

def PortBatch.quotaNeeded (body : PortBatch) : ℤ :=
  if body.both then body.privatePortCount * 2 else body.privatePortCount

section Routes

variable (mappings : List PortMapping) (host : NatPorts) (instanceId hostId : ℕ) (ipv6Only : Bool)

/-- `checkPortsInUse`, whether there is one. -/
def portsInUse (protocols : List PortProtocol) (ports : List ℕ) : Bool :=
  ports.any fun port => (usedPorts mappings hostId protocols).contains port

/-- A port is outside the range of the host, where it has one. -/
def NatPorts.excludes (port : ℕ) : Bool :=
  host.range.any fun range => port < range.1 || range.2 < port

/-- The route for one port, after its checks of the instance and up to the reservation. -/
def PortRequest.items (body : PortRequest) (random : ℕ) :
    Except String (List ReservePortMappingInput) :=
  let item (publicPort : ℕ) : ReservePortMappingInput :=
    { instanceId, hostId, publicPort, protocol := body.protocol, privatePort := body.privatePort
      remark := body.remark }
  let allocated : Except String ℕ :=
    match body.publicPort with
    | none =>
        match allocatePort mappings host hostId body.protocol random with
        | none => .error "PORT_NO_AVAILABLE"
        | some port => .ok port
    | some port =>
        if host.excludes port then .error "PORT_RANGE_INVALID"
        else if portsInUse mappings hostId [body.protocol] [port] then .error "PORT_IN_USE"
        else .ok port
  match allocated with
  | .error message => .error message
  | .ok port => if ipv6Only then .error "INVALID_PARAMS" else .ok [item port]

/-- The mappings of a batch: as submitted, as a range, or allocated. -/
def PortBatch.finalMappings (body : PortBatch) (random : ℕ → ℕ) : Except String (List (ℕ × ℕ)) :=
  let privatePorts := List.range' body.privatePortStart body.privatePortCount
  if body.portMappings ≠ [] then .ok body.portMappings
  else
    match body.publicPortStart, body.publicPortEnd with
    | some publicPortStart, some publicPortEnd =>
        if host.range.any fun range => publicPortStart < range.1 || range.2 < publicPortEnd then
          .error "PORT_RANGE_INVALID"
        else .ok (privatePorts.zip (List.range' publicPortStart body.privatePortCount))
    | _, _ =>
        let protocol := if body.both then .tcp else body.protocol
        let allocated :=
          allocatePorts mappings host hostId body.privatePortCount protocol body.both random
        if allocated.length < body.privatePortCount then .error "PORT_NO_AVAILABLE"
        else .ok (privatePorts.zip (allocated.insertionSort (· ≤ ·)))

/-- The counts of a batch fit together. -/
def PortBatch.matches (body : PortBatch) : Bool :=
  let privatePorts := List.range' body.privatePortStart body.privatePortCount
  body.publicPortStart.isSome == body.publicPortEnd.isSome &&
    (match body.publicPortStart, body.publicPortEnd with
      | some publicPortStart, some publicPortEnd =>
          publicPortEnd + 1 == publicPortStart + body.privatePortCount
      | _, _ => true) &&
    (body.portMappings.isEmpty ||
      body.portMappings.length == body.privatePortCount &&
        decide (body.portMappings.map Prod.fst).Nodup &&
        body.portMappings.all fun mapping => privatePorts.contains mapping.1)

/-- The route for a batch, after its checks of the instance and up to the reservation. -/
def PortBatch.items (body : PortBatch) (remainingQuota : ℤ) (random : ℕ → ℕ) :
    Except String (List ReservePortMappingInput) :=
  if body.privatePortCount = 0 ∨ 100 < body.privatePortCount then
    .error "端口范围无效，最多支持 100 个连续端口"
  else if !body.matches then .error "PORT_RANGE_MISMATCH"
  else if remainingQuota < body.quotaNeeded then .error "QUOTA_PORT_BATCH_EXCEEDED"
  else
    match body.finalMappings mappings host hostId random with
    | .error message => .error message
    | .ok finalMappings =>
        if finalMappings.any fun mapping => host.excludes mapping.2 then
          .error "PORT_RANGE_INVALID"
        else if ¬(finalMappings.map Prod.snd).Nodup then .error "PORT_RANGE_MISMATCH"
        else if (body.portMappings ≠ [] ∨ body.publicPortStart.isSome) ∧
            portsInUse mappings hostId body.protocolsToCreate (finalMappings.map Prod.snd) then
          .error "PORT_CONFLICT"
        else if ipv6Only then .error "INVALID_PARAMS"
        else
          .ok (body.protocolsToCreate.flatMap fun protocol => finalMappings.map fun mapping =>
            { instanceId, hostId, protocol, publicPort := mapping.2, privatePort := mapping.1
              remark := body.remark })

end Routes

section Requests

variable {mappings : List PortMapping} {host : NatPorts} {instanceId hostId : ℕ} {ipv6Only : Bool}
  {items : List ReservePortMappingInput} {range : ℕ × ℕ}

theorem inRange_of_not_excludes {port : ℕ} (h : host.range = some range)
    (hport : host.excludes port = false) : range.1 ≤ port ∧ port ≤ range.2 := by
  simp only [NatPorts.excludes, h, Option.any_some, Bool.or_eq_false_iff, decide_eq_false_iff_not,
    not_lt] at hport
  exact hport

/-- What a request for a port goes on with is in the range of the host. -/
theorem PortRequest.items_inRange {body : PortRequest} {random : ℕ} (h : host.range = some range)
    (hitems : body.items mappings host instanceId hostId ipv6Only random = .ok items) :
    ∀ item ∈ items, range.1 ≤ item.publicPort ∧ item.publicPort ≤ range.2 := by
  simp only [PortRequest.items] at hitems
  split at hitems
  · cases hitems
  · rename_i port hport
    split at hitems
    · cases hitems
    · obtain rfl := Except.ok.inj hitems
      intro item hitem
      obtain rfl := List.mem_singleton.mp hitem
      split at hport
      · split at hport
        · cases hport
        · rename_i allocated hallocated
          obtain rfl := Except.ok.inj hport
          have hspec : Allocates range (usedPorts mappings hostId [body.protocol]) 1
              (allocatePort mappings host hostId body.protocol random).toList :=
            allocatePort_spec h random
          exact hspec.inRange allocated (by simp [hallocated])
      · split at hport
        · cases hport
        · rename_i hexcludes
          split at hport
          · cases hport
          · obtain rfl := Except.ok.inj hport
            exact inRange_of_not_excludes h (by simpa using hexcludes)

/-- What a batch goes on with is in the range of the host. -/
theorem PortBatch.items_inRange {body : PortBatch} {remainingQuota : ℤ} {random : ℕ → ℕ}
    (h : host.range = some range)
    (hitems : body.items mappings host instanceId hostId ipv6Only remainingQuota random =
      .ok items) : ∀ item ∈ items, range.1 ≤ item.publicPort ∧ item.publicPort ≤ range.2 := by
  simp only [PortBatch.items] at hitems
  split at hitems
  · cases hitems
  split at hitems
  · cases hitems
  split at hitems
  · cases hitems
  split at hitems
  · cases hitems
  rename_i finalMappings hfinal
  split at hitems
  · cases hitems
  rename_i hexcludes
  split at hitems
  · cases hitems
  split at hitems
  · cases hitems
  split at hitems
  · cases hitems
  obtain rfl := Except.ok.inj hitems
  intro item hitem
  obtain ⟨protocol, -, hitem⟩ := List.mem_flatMap.mp hitem
  obtain ⟨mapping, hmapping, rfl⟩ := List.mem_map.mp hitem
  refine inRange_of_not_excludes h ?_
  simp only [List.any_eq_true, not_exists, not_and, Bool.not_eq_true] at hexcludes
  exact hexcludes mapping hmapping

end Requests

/-! ## Reservations -/

/-- Where a reservation is.  Its rows are its own until it commits; then they are of the table. -/
inductive ReservationStage
  | begun
  | locked
  | creating (rest : List ReservePortMappingInput) (created : List PortMapping)
  | reserved (rows : List PortMapping)
  | failed
  | released (rows : List PortMapping)
deriving DecidableEq, Repr

/-- The rows that no other transaction sees yet. -/
def ReservationStage.pending : ReservationStage → List PortMapping
  | .creating _ created => created
  | _ => []

/-- The rows that a reservation has brought into the table. -/
def ReservationStage.rows : ReservationStage → List PortMapping
  | .reserved rows | .released rows => rows
  | _ => []

/-- A call of `reservePortMappings`; `range` is that of the host when a route made the items. -/
structure PortReservation where
  id : ℕ
  items : List ReservePortMappingInput
  range : Option (ℕ × ℕ) := none
  stage : ReservationStage := .begun
deriving DecidableEq, Repr

/-- The host whose lock a reservation takes: that of its first item. -/
def PortReservation.lockedHost (reservation : PortReservation) : Option ℕ :=
  reservation.items.head?.map (·.hostId)

/-- A row that came into the table; `reservation` has written it, or another writer; `before` is
the table that it came into. -/
structure AddedRow where
  row : PortMapping
  reservation : Option ℕ
  before : List PortMapping
deriving DecidableEq, Repr

structure PortWorld where
  hosts : List (ℕ × NatPorts) := []
  mappings : List PortMapping := []
  nextId : ℕ := 1
  reservations : List PortReservation := []
  nextReservation : ℕ := 0
  /-- all rows that ever came into the table, and those that others have deleted -/
  added : List AddedRow := []
  removed : List ℕ := []
deriving DecidableEq, Repr

inductive PortEvent
  | updateHost (hostId : ℕ) (host : NatPorts)
  | postPort (instanceId hostId : ℕ) (ipv6Only : Bool) (body : PortRequest) (random : ℕ)
  | postPortsBatch (instanceId hostId : ℕ) (ipv6Only : Bool) (body : PortBatch)
      (remainingQuota : ℤ) (random : List ℕ)
  | reservePortMappings (items : List ReservePortMappingInput)
  | lock (k : ℕ)
  | findConflicts (k : ℕ)
  | create (k : ℕ)
  | commit (k : ℕ)
  /-- an error of the database -/
  | abort (k : ℕ)
  /-- what was to be done with the ports has failed -/
  | releasePortMappings (k : ℕ)
  /-- other writers: a copied instance, and every way to delete mappings -/
  | createPortMapping (item : ReservePortMappingInput)
  | deleteMappings (ids : List ℕ)
deriving DecidableEq, Repr

namespace PortWorld

variable (w : PortWorld)

def host (hostId : ℕ) : NatPorts :=
  ((Keyed.lookup Prod.fst hostId w.hosts).map Prod.snd).getD {}

def stageOf (k : ℕ) : Option ReservationStage :=
  (Keyed.lookup PortReservation.id k w.reservations).map (·.stage)

def pending : List PortMapping := w.reservations.flatMap (·.stage.pending)

/-- A reservation begins with the items of a route, if it got so far. -/
def begin (items : Except String (List ReservePortMappingInput)) (range : Option (ℕ × ℕ)) :
    PortWorld :=
  match items with
  | .error _ => w
  | .ok items =>
      { w with
          reservations := w.reservations ++ [{ id := w.nextReservation, items, range }]
          nextReservation := w.nextReservation + 1 }

def goto (k : ℕ) (stage : ReservationStage) : PortWorld :=
  { w with
      reservations := Keyed.modify PortReservation.id k (fun reservation =>
        { reservation with stage }) w.reservations }

/-- Another reservation holds the lock of the host. -/
def lockTaken (reservation : PortReservation) : Bool :=
  w.reservations.any fun other => other.lockedHost == reservation.lockedHost &&
    match other.stage with
    | .locked | .creating .. => true
    | _ => false

/-- `findMany` for the protocols and the ports of the items, whichever come together. -/
def conflicts (items : List ReservePortMappingInput) : Bool :=
  w.mappings.any fun row => (items.head?.map (·.hostId)) == some row.hostId &&
    items.any (·.protocol == row.protocol) && items.any (·.publicPort == row.publicPort)

/-- One `create` of the transaction, which the unique index may refuse. -/
def create (k : ℕ) (item : ReservePortMappingInput) (rest : List ReservePortMappingInput)
    (created : List PortMapping) : PortWorld :=
  if (w.mappings ++ created).any (·.triple == item.triple) then w.goto k .failed
  else
    { w.goto k (.creating rest (created ++ [{ item.stored with id := w.nextId }])) with
        nextId := w.nextId + 1 }

/-- Rows come into the table. -/
def add (rows : List PortMapping) (reservation : Option ℕ) : PortWorld :=
  { w with
      mappings := w.mappings ++ rows
      added := w.added ++ rows.map fun row => { row, reservation, before := w.mappings } }

def drop (ids : List ℕ) : List PortMapping := w.mappings.filter fun row => !ids.contains row.id

end PortWorld

/-- One statement of a reservation, or of another writer.  An insert that meets an uncommitted row
of the same triple waits for its transaction. -/
def portStep (w : PortWorld) : PortEvent → Option PortWorld
  | .updateHost hostId host => some { w with hosts := (hostId, host) :: w.hosts }
  | .postPort instanceId hostId ipv6Only body random =>
      some (w.begin (body.items w.mappings (w.host hostId) instanceId hostId ipv6Only random)
        (w.host hostId).range)
  | .postPortsBatch instanceId hostId ipv6Only body remainingQuota random =>
      some (w.begin
        (body.items w.mappings (w.host hostId) instanceId hostId ipv6Only remainingQuota
          (random.getD · 0))
        (w.host hostId).range)
  | .reservePortMappings items => some (w.begin (.ok items) none)
  | .lock k =>
      match Keyed.lookup PortReservation.id k w.reservations with
      | some reservation =>
          if reservation.stage = .begun then
            -- nothing to reserve: no transaction
            if reservation.items = [] then some (w.goto k (.reserved []))
            else if w.lockTaken reservation then none
            else some (w.goto k .locked)
          else none
      | none => none
  | .findConflicts k =>
      match Keyed.lookup PortReservation.id k w.reservations with
      | some reservation =>
          if reservation.stage = .locked then
            some (if w.conflicts reservation.items then w.goto k .failed
              else w.goto k (.creating reservation.items []))
          else none
      | none => none
  | .create k =>
      match w.stageOf k with
      | some (.creating (item :: rest) created) =>
          if (w.pending.filter fun row => !created.contains row).any (·.triple == item.triple) then
            none
          else some (w.create k item rest created)
      | _ => none
  | .commit k =>
      match w.stageOf k with
      | some (.creating [] created) => some ((w.add created (some k)).goto k (.reserved created))
      | _ => none
  | .abort k =>
      match w.stageOf k with
      | some .begun | some .locked | some (.creating ..) => some (w.goto k .failed)
      | _ => none
  | .releasePortMappings k =>
      match w.stageOf k with
      | some (.reserved rows) =>
          some { w.goto k (.released rows) with mappings := w.drop (rows.map (·.id)) }
      | _ => none
  | .createPortMapping item =>
      if w.pending.any (·.triple == item.triple) then none
      else if w.mappings.any (·.triple == item.triple) then some { w with nextId := w.nextId + 1 }
      else
        some { w.add [{ item.stored with id := w.nextId }] none with nextId := w.nextId + 1 }
  | .deleteMappings ids =>
      some { w with mappings := w.drop ids, removed := w.removed ++ ids }

/-! ## What is promised -/

/-- A reservation has all its rows or none: those that it has are the ones that were asked for, in
the range of the host, and of triples that differ and that the table did not have.  A row leaves the
table only when others delete it, or when its own reservation is released. -/
structure PortsSafe (w : PortWorld) : Prop where
  distinct : (w.mappings.map PortMapping.triple).Nodup
  all : ∀ r ∈ w.reservations, ∀ rows, r.stage = .reserved rows ∨ r.stage = .released rows →
    rows.map (·.toReservePortMappingInput) = r.items.map (·.stored) ∧
      (rows.map PortMapping.triple).Nodup ∧
      ∀ row ∈ rows, ∃ a ∈ w.added, a.row = row ∧ a.reservation = some r.id
  nothing : ∀ a ∈ w.added, ∀ k, a.reservation = some k →
    ∃ r ∈ w.reservations, r.id = k ∧ a.row ∈ r.stage.rows
  inRange : ∀ r ∈ w.reservations, ∀ range, r.range = some range →
    ∀ item ∈ r.items, range.1 ≤ item.publicPort ∧ item.publicPort ≤ range.2
  unused : ∀ a ∈ w.added, a.row.triple ∉ a.before.map PortMapping.triple
  table : ∀ row ∈ w.mappings, ∃ a ∈ w.added, a.row = row
  kept : ∀ a ∈ w.added, a.row ∈ w.mappings ∨ a.row.id ∈ w.removed ∨
    ∃ r ∈ w.reservations, ∃ rows, r.stage = .released rows ∧ a.reservation = some r.id
  gone : ∀ r ∈ w.reservations, ∀ rows, r.stage = .released rows → ∀ row ∈ rows, row ∉ w.mappings

/-! ## The invariant -/

/-- What a reservation has made is the first part of what was asked for. -/
def PortReservation.Shaped (r : PortReservation) : Prop :=
  match r.stage with
  | .creating rest created =>
      created.map (·.toReservePortMappingInput) ++ rest.map (·.stored) = r.items.map (·.stored)
  | .reserved rows | .released rows =>
      rows.map (·.toReservePortMappingInput) = r.items.map (·.stored)
  | .begun | .locked | .failed => True

/-- Triples and ids are distinct over the table and the rows that are still pending. -/
structure PortInv (w : PortWorld) : Prop where
  keys : (w.reservations.map PortReservation.id).Nodup
  newest : ∀ r ∈ w.reservations, r.id < w.nextReservation
  ids : ((w.added.map (·.row) ++ w.pending).map PortMapping.id).Nodup
  below : ∀ row ∈ w.added.map (·.row) ++ w.pending, row.id < w.nextId
  triples : ((w.mappings ++ w.pending).map PortMapping.triple).Nodup
  shaped : ∀ r ∈ w.reservations, r.Shaped
  rows : ∀ r ∈ w.reservations, (r.stage.rows.map PortMapping.triple).Nodup ∧
    ∀ row ∈ r.stage.rows, ∃ a ∈ w.added, a.row = row ∧ a.reservation = some r.id
  writer : ∀ a ∈ w.added, ∀ k, a.reservation = some k →
    ∃ r ∈ w.reservations, r.id = k ∧ a.row ∈ r.stage.rows
  inRange : ∀ r ∈ w.reservations, ∀ range, r.range = some range →
    ∀ item ∈ r.items, range.1 ≤ item.publicPort ∧ item.publicPort ≤ range.2
  unused : ∀ a ∈ w.added, a.row.triple ∉ a.before.map PortMapping.triple
  table : ∀ row ∈ w.mappings, ∃ a ∈ w.added, a.row = row
  kept : ∀ a ∈ w.added, a.row ∈ w.mappings ∨ a.row.id ∈ w.removed ∨
    ∃ r ∈ w.reservations, ∃ rows, r.stage = .released rows ∧ a.reservation = some r.id
  gone : ∀ r ∈ w.reservations, ∀ rows, r.stage = .released rows → ∀ row ∈ rows, row ∉ w.mappings

section Invariant

variable {w w' : PortWorld} {event : PortEvent} {r : PortReservation} {stage : ReservationStage}
  {k : ℕ} {row : PortMapping}

theorem PortInv.safe (h : PortInv w) : PortsSafe w where
  distinct := by
    have htriples := h.triples
    rw [List.map_append] at htriples
    exact (List.nodup_append.mp htriples).1
  all := by
    intro r hr rows hstage
    have hshaped := h.shaped r hr
    have hrows := h.rows r hr
    rw [PortReservation.Shaped] at hshaped
    rcases hstage with hstage | hstage <;> rw [hstage] at hshaped hrows <;>
      exact ⟨hshaped, hrows⟩
  nothing := h.writer
  inRange := h.inRange
  unused := h.unused
  table := h.table
  kept := h.kept
  gone := h.gone

/-- The rows of a reservation apart from those of the others. -/
theorem pending_split (h : (w.reservations.map PortReservation.id).Nodup)
    (hr : r ∈ w.reservations) :
    ∃ others, w.pending.Perm (r.stage.pending ++ others) ∧
      ∀ stage, (w.goto r.id stage).pending.Perm (stage.pending ++ others) := by
  obtain ⟨before, after, hrows, hmodify, -⟩ := Keyed.split_of_mem h hr
  refine ⟨before.flatMap (·.stage.pending) ++ after.flatMap (·.stage.pending), ?_, fun stage => ?_⟩
  · rw [PortWorld.pending, hrows, List.flatMap_append, List.flatMap_cons]
    exact List.perm_append_comm_assoc _ _ _
  · rw [PortWorld.pending, PortWorld.goto, hmodify, List.flatMap_append, List.flatMap_cons]
    exact List.perm_append_comm_assoc _ _ _

/-- A reservation after a move is another one, or the one that has moved. -/
theorem of_mem_goto (h : (w.reservations.map PortReservation.id).Nodup) (hr : r ∈ w.reservations)
    {r' : PortReservation} (hr' : r' ∈ (w.goto r.id stage).reservations) :
    r' = { r with stage } ∨ r' ∈ w.reservations ∧ r'.id ≠ r.id := by
  obtain ⟨r₀, hr₀, rfl⟩ := Keyed.mem_modify.mp hr'
  split
  · rename_i hid
    obtain rfl := List.inj_on_of_nodup_map h hr₀ hr hid
    exact .inl rfl
  · rename_i hid
    exact .inr ⟨hr₀, hid⟩

theorem mem_goto_self (hr : r ∈ w.reservations) :
    { r with stage } ∈ (w.goto r.id stage).reservations :=
  Keyed.mem_modify.mpr ⟨r, hr, by rw [if_pos rfl]⟩

theorem mem_goto_of_ne {r' : PortReservation} (hr' : r' ∈ w.reservations) (hne : r'.id ≠ r.id) :
    r' ∈ (w.goto r.id stage).reservations :=
  Keyed.mem_modify_of_ne hr' hne rfl

theorem keys_goto : (w.goto k stage).reservations.map PortReservation.id =
    w.reservations.map PortReservation.id :=
  Keyed.map_key_modify fun _ => rfl

/-- The tables stay, and so does what the other reservations have. -/
theorem PortInv.move (h : PortInv w) (nextId : ℕ) (hr : r ∈ w.reservations)
    (hrows : r.stage.rows = []) (hrows' : stage.rows = [])
    (hshaped : PortReservation.Shaped { r with stage })
    (hids : ((w.added.map (·.row) ++ (w.goto r.id stage).pending).map PortMapping.id).Nodup)
    (hbelow : ∀ row ∈ w.added.map (·.row) ++ (w.goto r.id stage).pending, row.id < nextId)
    (htriples : ((w.mappings ++ (w.goto r.id stage).pending).map PortMapping.triple).Nodup) :
    PortInv { w.goto r.id stage with nextId } := by
  constructor
  case keys => exact keys_goto.symm ▸ h.keys
  case newest =>
    intro r' hr'
    rcases of_mem_goto h.keys hr hr' with rfl | ⟨hr', -⟩
    · exact h.newest r hr
    · exact h.newest r' hr'
  case ids => exact hids
  case below => exact hbelow
  case triples => exact htriples
  case shaped =>
    intro r' hr'
    rcases of_mem_goto h.keys hr hr' with rfl | ⟨hr', -⟩
    · exact hshaped
    · exact h.shaped r' hr'
  case rows =>
    intro r' hr'
    rcases of_mem_goto h.keys hr hr' with rfl | ⟨hr', -⟩
    · simp [hrows']
    · exact h.rows r' hr'
  case writer =>
    intro a ha k hk
    obtain ⟨r', hr', rfl, hrow⟩ := h.writer a ha k hk
    refine ⟨r', mem_goto_of_ne hr' fun hid => ?_, rfl, hrow⟩
    obtain rfl := List.inj_on_of_nodup_map h.keys hr' hr hid
    simp [hrows] at hrow
  case inRange =>
    intro r' hr'
    rcases of_mem_goto h.keys hr hr' with rfl | ⟨hr', -⟩
    · exact h.inRange r hr
    · exact h.inRange r' hr'
  case unused => exact h.unused
  case table => exact h.table
  case kept =>
    intro a ha
    refine (h.kept a ha).imp_right (Or.imp_right ?_)
    rintro ⟨r', hr', rows, hstage, hres⟩
    obtain ⟨r₀, hr₀, hid, hrow⟩ := h.writer a ha r'.id hres
    obtain rfl := List.inj_on_of_nodup_map h.keys hr₀ hr' hid
    refine ⟨r₀, mem_goto_of_ne hr' fun hid => ?_, rows, hstage, hres⟩
    obtain rfl := List.inj_on_of_nodup_map h.keys hr' hr hid
    simp [hrows] at hrow
  case gone =>
    intro r' hr' rows hstage
    rcases of_mem_goto h.keys hr hr' with rfl | ⟨hr', -⟩
    · have hnil : rows = [] := by
        have hreleased : stage = .released rows := hstage
        rw [hreleased] at hrows'
        exact hrows'
      simp [hnil]
    · exact h.gone r' hr' rows hstage

/-- A reservation goes on without rows, or gives up those that are pending. -/
theorem PortInv.goto (h : PortInv w) (hr : r ∈ w.reservations) (hrows : r.stage.rows = [])
    (hpending : stage.pending = []) (hrows' : stage.rows = [])
    (hshaped : PortReservation.Shaped { r with stage }) : PortInv (w.goto r.id stage) := by
  obtain ⟨others, hperm, hperm'⟩ := pending_split h.keys hr
  have hnew : (w.goto r.id stage).pending.Perm others := by
    have hstage := hperm' stage
    rwa [hpending, List.nil_append] at hstage
  have hnodup : ∀ {β : Type} (f : PortMapping → β) (l : List PortMapping),
      ((l ++ w.pending).map f).Nodup → ((l ++ (w.goto r.id stage).pending).map f).Nodup := by
    intro β f l hl
    have hall : ((l ++ (r.stage.pending ++ others)).map f).Nodup :=
      (((List.Perm.append_left l hperm).map f).nodup_iff).mp hl
    refine (((List.Perm.append_left l hnew).map f).nodup_iff).mpr (hall.sublist ?_)
    exact (List.Sublist.append_left (List.sublist_append_right _ _) l).map f
  refine h.move w.nextId hr hrows hrows' hshaped (hnodup _ _ h.ids) ?_
    (hnodup _ _ h.triples)
  intro row hrow
  rcases List.mem_append.mp hrow with hrow | hrow
  · exact h.below row (List.mem_append_left _ hrow)
  · refine h.below row (List.mem_append_right _ (hperm.mem_iff.mpr ?_))
    exact List.mem_append_right _ (hnew.mem_iff.mp hrow)

/-- A row is made, whose triple nobody has. -/
theorem PortInv.create {item : ReservePortMappingInput} {rest : List ReservePortMappingInput}
    {created : List PortMapping} (h : PortInv w) (hr : r ∈ w.reservations)
    (hstage : r.stage = .creating (item :: rest) created)
    (hwait : (w.pending.filter fun row => !created.contains row).any (·.triple == item.triple) =
      false) : PortInv (w.create r.id item rest created) := by
  unfold PortWorld.create
  split
  · exact h.goto hr (by rw [hstage]; rfl) rfl rfl trivial
  · rename_i hfree
    obtain ⟨others, hperm, hperm'⟩ := pending_split h.keys hr
    let row : PortMapping := { item.stored with id := w.nextId }
    have hstage' := hperm' (.creating rest (created ++ [row]))
    rw [hstage] at hperm
    simp only [ReservationStage.pending] at hperm hstage'
    -- the new row may stand before all others
    have hall : ∀ l : List PortMapping,
        (l ++ (w.goto r.id (.creating rest (created ++ [row]))).pending).Perm
          (row :: (l ++ w.pending)) := by
      intro l
      refine (List.Perm.append_left l hstage').trans ?_
      rw [List.append_assoc, List.singleton_append]
      refine (List.Perm.append_left l List.perm_middle).trans (List.perm_middle.trans ?_)
      exact (List.Perm.append_left l hperm.symm).cons _
    have htriple : row.triple ∉ (w.mappings ++ w.pending).map PortMapping.triple := by
      simp only [List.mem_map, not_exists, not_and]
      intro row' hrow' heq
      have hitem : row'.triple = item.triple := heq
      simp only [List.any_eq_true, beq_iff_eq, not_exists, not_and] at hfree
      simp only [List.any_eq_false, beq_iff_eq, List.mem_filter, Bool.not_eq_true',
        List.contains_eq_mem, decide_eq_false_iff_not, and_imp] at hwait
      rcases List.mem_append.mp hrow' with hrow' | hrow'
      · exact hfree row' (List.mem_append_left _ hrow') hitem
      · by_cases hown : row' ∈ created
        · exact hfree row' (List.mem_append_right _ hown) hitem
        · exact hwait row' hrow' hown hitem
    refine h.move (w.nextId + 1) hr (by rw [hstage]; rfl) rfl ?_ ?_ ?_ ?_
    · have hshaped := h.shaped r hr
      rw [PortReservation.Shaped, hstage] at hshaped
      simpa [PortReservation.Shaped, row] using hshaped
    · refine ((hall _).map _).nodup_iff.mpr (List.nodup_cons.mpr ⟨?_, h.ids⟩)
      simp only [List.mem_map, not_exists, not_and]
      exact fun row' hrow' => (h.below row' hrow').ne
    · intro row' hrow'
      rcases List.mem_cons.mp ((hall _).mem_iff.mp hrow') with rfl | hrow'
      · exact Nat.lt_succ_self _
      · exact (h.below row' hrow').trans (Nat.lt_succ_self _)
    · exact ((hall _).map _).nodup_iff.mpr (List.nodup_cons.mpr ⟨htriple, h.triples⟩)

/-- The rows of a reservation come into the table together. -/
theorem PortInv.commit {created : List PortMapping} (h : PortInv w) (hr : r ∈ w.reservations)
    (hstage : r.stage = .creating [] created) :
    PortInv ((w.add created (some r.id)).goto r.id (.reserved created)) := by
  obtain ⟨others, hperm, hperm'⟩ := pending_split h.keys hr
  have hnew : ((w.add created (some r.id)).goto r.id (.reserved created)).pending.Perm others :=
    hperm' (.reserved created)
  rw [hstage] at hperm
  simp only [ReservationStage.pending] at hperm
  have hmove : ∀ l : List PortMapping, (l ++ created ++
      ((w.add created (some r.id)).goto r.id (.reserved created)).pending).Perm (l ++ w.pending) := by
    intro l
    rw [List.append_assoc]
    exact List.Perm.append_left l ((List.Perm.append_left created hnew).trans hperm.symm)
  have hadded : (w.add created (some r.id)).added.map (·.row) = w.added.map (·.row) ++ created := by
    simp [PortWorld.add, Function.comp_def]
  have hcreated : ((w.mappings ++ created).map PortMapping.triple).Nodup := by
    refine (((hmove w.mappings).map _).nodup_iff.mpr h.triples).sublist ?_
    exact (List.sublist_append_left _ _).map _
  have hof : ∀ a ∈ (w.add created (some r.id)).added, a ∈ w.added ∨
      a.row ∈ created ∧ a.reservation = some r.id ∧ a.before = w.mappings := by
    intro a ha
    rcases List.mem_append.mp ha with ha | ha
    · exact .inl ha
    · obtain ⟨row, hrow, rfl⟩ := List.mem_map.mp ha
      exact .inr ⟨hrow, rfl, rfl⟩
  constructor
  case keys => exact keys_goto.symm ▸ h.keys
  case newest =>
    intro r' hr'
    rcases of_mem_goto (w := w.add created (some r.id)) h.keys hr hr' with rfl | ⟨hr', -⟩
    · exact h.newest r hr
    · exact h.newest r' hr'
  case ids =>
    have hnodup := ((hmove (w.added.map (·.row))).map PortMapping.id).nodup_iff.mpr h.ids
    rwa [← hadded] at hnodup
  case below =>
    intro row hrow
    refine h.below row ((hmove (w.added.map (·.row))).mem_iff.mp ?_)
    rwa [← hadded]
  case triples => exact ((hmove w.mappings).map _).nodup_iff.mpr h.triples
  case shaped =>
    intro r' hr'
    rcases of_mem_goto (w := w.add created (some r.id)) h.keys hr hr' with rfl | ⟨hr', -⟩
    · have hshaped := h.shaped r hr
      rw [PortReservation.Shaped, hstage] at hshaped
      simpa [PortReservation.Shaped] using hshaped
    · exact h.shaped r' hr'
  case rows =>
    intro r' hr'
    rcases of_mem_goto (w := w.add created (some r.id)) h.keys hr hr' with rfl | ⟨hr', -⟩
    · rw [List.map_append] at hcreated
      refine ⟨(List.nodup_append.mp hcreated).2.1, fun row hrow => ?_⟩
      exact ⟨_, List.mem_append_right _ (List.mem_map_of_mem hrow), rfl, rfl⟩
    · refine ⟨(h.rows r' hr').1, fun row hrow => ?_⟩
      obtain ⟨a, ha, harow, hares⟩ := (h.rows r' hr').2 row hrow
      exact ⟨a, List.mem_append_left _ ha, harow, hares⟩
  case writer =>
    intro a ha k hk
    rcases hof a ha with ha | ⟨hrow, hres, -⟩
    · obtain ⟨r', hr', rfl, hrow⟩ := h.writer a ha k hk
      refine ⟨r', mem_goto_of_ne (w := w.add created (some r.id)) hr' fun hid => ?_, rfl, hrow⟩
      obtain rfl := List.inj_on_of_nodup_map h.keys hr' hr hid
      simp [hstage, ReservationStage.rows] at hrow
    · obtain rfl := Option.some.inj (hres.symm.trans hk)
      exact ⟨_, mem_goto_self (w := w.add created (some r.id)) hr, rfl, hrow⟩
  case inRange =>
    intro r' hr'
    rcases of_mem_goto (w := w.add created (some r.id)) h.keys hr hr' with rfl | ⟨hr', -⟩
    · exact h.inRange r hr
    · exact h.inRange r' hr'
  case unused =>
    intro a ha
    rcases hof a ha with ha | ⟨hrow, -, hbefore⟩
    · exact h.unused a ha
    · rw [List.map_append] at hcreated
      rw [hbefore]
      exact fun hmem => (List.nodup_append.mp hcreated).2.2 _ hmem _ (List.mem_map_of_mem hrow) rfl
  case table =>
    intro row hrow
    rcases List.mem_append.mp hrow with hrow | hrow
    · obtain ⟨a, ha, harow⟩ := h.table row hrow
      exact ⟨a, List.mem_append_left _ ha, harow⟩
    · exact ⟨_, List.mem_append_right _ (List.mem_map_of_mem hrow), rfl⟩
  case kept =>
    intro a ha
    rcases hof a ha with ha | ⟨hrow, -, -⟩
    · rcases h.kept a ha with hmem | hremoved | ⟨r', hr', rows, hreleased, hres⟩
      · exact .inl (List.mem_append_left _ hmem)
      · exact .inr (.inl hremoved)
      · refine .inr (.inr ⟨r', mem_goto_of_ne (w := w.add created (some r.id)) hr' fun hid => ?_,
          rows, hreleased, hres⟩)
        obtain rfl := List.inj_on_of_nodup_map h.keys hr' hr hid
        simp [hstage] at hreleased
    · exact .inl (List.mem_append_right _ hrow)
  case gone =>
    intro r' hr' rows hreleased row hrow
    rcases of_mem_goto (w := w.add created (some r.id)) h.keys hr hr' with rfl | ⟨hr', hne⟩
    · cases hreleased
    · intro hmem
      rcases List.mem_append.mp hmem with hmem | hmem
      · exact h.gone r' hr' rows hreleased row hrow hmem
      · -- a row with this id is in the table already, or still pending
        obtain ⟨a, ha, harow, -⟩ := (h.rows r' hr').2 row (by rw [hreleased]; exact hrow)
        have hids := h.ids
        rw [List.map_append] at hids
        refine (List.nodup_append.mp hids).2.2 row.id ?_ row.id ?_ rfl
        · exact List.mem_map_of_mem (harow ▸ List.mem_map_of_mem ha)
        · exact List.mem_map_of_mem (hperm.mem_iff.mpr (List.mem_append_left _ hmem))

/-- Rows leave the table by their ids; the reservations stay as they are. -/
theorem PortInv.drop {ids removed : List ℕ} (h : PortInv w)
    (hremoved : ∀ id ∈ w.removed ++ ids, id ∈ removed) :
    PortInv { w with mappings := w.drop ids, removed } := by
  have hsub : ∀ row ∈ w.drop ids, row ∈ w.mappings := fun row => List.mem_of_mem_filter
  refine { h with triples := ?_, table := ?_, kept := ?_, gone := ?_ }
  · refine h.triples.sublist (List.Sublist.map _ ?_)
    exact List.filter_sublist.append_right _
  · exact fun row hrow => h.table row (hsub row hrow)
  · intro a ha
    rcases h.kept a ha with hmem | hgone | hreleased
    · by_cases hid : a.row.id ∈ ids
      · exact .inr (.inl (hremoved _ (List.mem_append_right _ hid)))
      · exact .inl (List.mem_filter.mpr ⟨hmem, by simpa using hid⟩)
    · exact .inr (.inl (hremoved _ (List.mem_append_left _ hgone)))
    · exact .inr (.inr hreleased)
  · exact fun r hr rows hreleased row hrow hmem =>
      h.gone r hr rows hreleased row hrow (hsub row hmem)

/-- A reservation is released: by their ids it drops its own rows. -/
theorem PortInv.release {rows : List PortMapping} (h : PortInv w) (hr : r ∈ w.reservations)
    (hstage : r.stage = .reserved rows) :
    PortInv { w.goto r.id (.released rows) with mappings := w.drop (rows.map (·.id)) } := by
  have hsub : ∀ row ∈ w.drop (rows.map (·.id)), row ∈ w.mappings := fun row =>
    List.mem_of_mem_filter
  obtain ⟨others, hperm, hperm'⟩ := pending_split h.keys hr
  have hpending : (w.goto r.id (.released rows)).pending.Perm w.pending := by
    rw [hstage] at hperm
    exact (hperm' (.released rows)).trans hperm.symm
  have hown := h.rows r hr
  rw [hstage] at hown
  constructor
  case keys => exact keys_goto.symm ▸ h.keys
  case newest =>
    intro r' hr'
    rcases of_mem_goto h.keys hr hr' with rfl | ⟨hr', -⟩
    · exact h.newest r hr
    · exact h.newest r' hr'
  case ids =>
    exact ((List.Perm.append_left _ hpending).map _).nodup_iff.mpr h.ids
  case below =>
    exact fun row hrow => h.below row ((List.Perm.append_left _ hpending).mem_iff.mp hrow)
  case triples =>
    refine ((List.Perm.append_left _ hpending).map _).nodup_iff.mpr ?_
    exact h.triples.sublist ((List.filter_sublist.append_right _).map _)
  case shaped =>
    intro r' hr'
    rcases of_mem_goto h.keys hr hr' with rfl | ⟨hr', -⟩
    · have hshaped := h.shaped r hr
      rwa [PortReservation.Shaped, hstage] at hshaped
    · exact h.shaped r' hr'
  case rows =>
    intro r' hr'
    rcases of_mem_goto h.keys hr hr' with rfl | ⟨hr', -⟩
    · exact hown
    · exact h.rows r' hr'
  case writer =>
    intro a ha k hk
    obtain ⟨r', hr', rfl, hrow⟩ := h.writer a ha k hk
    by_cases hid : r'.id = r.id
    · obtain rfl := List.inj_on_of_nodup_map h.keys hr' hr hid
      rw [hstage] at hrow
      exact ⟨_, mem_goto_self hr', rfl, hrow⟩
    · exact ⟨r', mem_goto_of_ne hr' hid, rfl, hrow⟩
  case inRange =>
    intro r' hr'
    rcases of_mem_goto h.keys hr hr' with rfl | ⟨hr', -⟩
    · exact h.inRange r hr
    · exact h.inRange r' hr'
  case unused => exact h.unused
  case table => exact fun row hrow => h.table row (hsub row hrow)
  case kept =>
    intro a ha
    rcases h.kept a ha with hmem | hgone | ⟨r', hr', rows', hreleased, hres⟩
    · by_cases hid : a.row.id ∈ rows.map (·.id)
      · -- the row that is dropped is one of the reservation's own
        obtain ⟨row, hrow, hid⟩ := List.mem_map.mp hid
        obtain ⟨a', ha', rfl, hres'⟩ := hown.2 row hrow
        have hids : (w.added.map (·.row.id)).Nodup := by
          have hall := h.ids
          rw [List.map_append, List.map_map] at hall
          exact (List.nodup_append.mp hall).1
        obtain rfl := List.inj_on_of_nodup_map hids ha' ha hid
        exact .inr (.inr ⟨_, mem_goto_self hr, rows, rfl, hres'⟩)
      · exact .inl (List.mem_filter.mpr ⟨hmem, by simpa using hid⟩)
    · exact .inr (.inl hgone)
    · refine .inr (.inr ⟨r', mem_goto_of_ne hr' fun hid => ?_, rows', hreleased, hres⟩)
      obtain rfl := List.inj_on_of_nodup_map h.keys hr' hr hid
      rw [hstage] at hreleased
      cases hreleased
  case gone =>
    intro r' hr' rows' hreleased row hrow hmem
    rcases of_mem_goto h.keys hr hr' with rfl | ⟨hr', -⟩
    · obtain rfl := ReservationStage.released.inj hreleased
      have hout := (List.mem_filter.mp hmem).2
      simp only [Bool.not_eq_true', List.contains_eq_mem, decide_eq_false_iff_not] at hout
      exact hout (List.mem_map_of_mem hrow)
    · exact h.gone r' hr' rows' hreleased row hrow (hsub row hmem)

/-- A request is refused, or begins a reservation. -/
theorem PortInv.begin {items : Except String (List ReservePortMappingInput)}
    {range : Option (ℕ × ℕ)} (h : PortInv w)
    (hrange : ∀ is, items = .ok is → ∀ rg, range = some rg →
      ∀ item ∈ is, rg.1 ≤ item.publicPort ∧ item.publicPort ≤ rg.2) :
    PortInv (w.begin items range) := by
  unfold PortWorld.begin
  split
  · exact h
  · rename_i is
    have hpending : (w.begin (.ok is) range).pending = w.pending := by
      simp [PortWorld.pending, PortWorld.begin, ReservationStage.pending]
    have hof : ∀ r ∈ (w.begin (.ok is) range).reservations, r ∈ w.reservations ∨
        r = { id := w.nextReservation, items := is, range } := fun r hr =>
      (List.mem_append.mp hr).imp_right List.mem_singleton.mp
    constructor
    case keys => exact Keyed.nodup_append_singleton h.keys fun r hr => (h.newest r hr).ne
    case newest => exact Keyed.below_concat h.newest (Nat.le_succ _) (Nat.lt_succ_self _)
    case ids => exact hpending.symm ▸ h.ids
    case below => exact hpending.symm ▸ h.below
    case triples => exact hpending.symm ▸ h.triples
    case shaped =>
      intro r hr
      rcases hof r hr with hr | rfl
      · exact h.shaped r hr
      · trivial
    case rows =>
      intro r hr
      rcases hof r hr with hr | rfl
      · exact h.rows r hr
      · simp [ReservationStage.rows]
    case writer =>
      intro a ha k hk
      obtain ⟨r, hr, hid, hrow⟩ := h.writer a ha k hk
      exact ⟨r, List.mem_append_left _ hr, hid, hrow⟩
    case inRange =>
      intro r hr rg hrg
      rcases hof r hr with hr | rfl
      · exact h.inRange r hr rg hrg
      · exact hrange is rfl rg hrg
    case unused => exact h.unused
    case table => exact h.table
    case kept =>
      intro a ha
      refine (h.kept a ha).imp_right (Or.imp_right ?_)
      rintro ⟨r, hr, hfacts⟩
      exact ⟨r, List.mem_append_left _ hr, hfacts⟩
    case gone =>
      intro r hr rows hreleased
      rcases hof r hr with hr | rfl
      · exact h.gone r hr rows hreleased
      · cases hreleased

/-- Another writer adds a row, whose triple nobody has. -/
theorem PortInv.createPortMapping {item : ReservePortMappingInput} (h : PortInv w)
    (hpending : ¬w.pending.any (·.triple == item.triple) = true)
    (hfree : ¬w.mappings.any (·.triple == item.triple) = true) :
    PortInv { w.add [{ item.stored with id := w.nextId }] none with nextId := w.nextId + 1 } := by
  let row : PortMapping := { item.stored with id := w.nextId }
  simp only [List.any_eq_true, beq_iff_eq, not_exists, not_and] at hpending hfree
  have hlast : ∀ l : List PortMapping, (l ++ [row] ++ w.pending).Perm (row :: (l ++ w.pending)) := by
    intro l
    rw [List.append_assoc]
    exact List.perm_middle
  have hadded : (w.add [row] none).added.map (·.row) = w.added.map (·.row) ++ [row] := by
    simp [PortWorld.add]
  have hof : ∀ a ∈ (w.add [row] none).added, a ∈ w.added ∨
      a = { row, reservation := none, before := w.mappings } := fun a ha =>
    (List.mem_append.mp ha).imp_right List.mem_singleton.mp
  have hnew : row.triple ∉ w.mappings.map PortMapping.triple := by
    rw [List.mem_map]
    rintro ⟨row', hrow', heq⟩
    exact hfree row' hrow' heq
  constructor
  case keys => exact h.keys
  case newest => exact h.newest
  case ids =>
    have hnodup := ((hlast (w.added.map (·.row))).map PortMapping.id).nodup_iff.mpr
      (List.nodup_cons.mpr ⟨?_, h.ids⟩)
    · rwa [← hadded] at hnodup
    · rw [List.mem_map]
      rintro ⟨row', hrow', heq⟩
      exact (h.below row' hrow').ne heq
  case below =>
    intro row' hrow'
    have hmem : row' ∈ w.added.map (·.row) ++ [row] ++ w.pending := by
      rwa [← hadded]
    rcases List.mem_cons.mp ((hlast _).mem_iff.mp hmem) with rfl | hrow'
    · exact Nat.lt_succ_self _
    · exact (h.below row' hrow').trans (Nat.lt_succ_self _)
  case triples =>
    refine ((hlast w.mappings).map PortMapping.triple).nodup_iff.mpr
      (List.nodup_cons.mpr ⟨?_, h.triples⟩)
    rw [List.mem_map]
    rintro ⟨row', hrow', heq⟩
    rcases List.mem_append.mp hrow' with hrow' | hrow'
    · exact hfree row' hrow' heq
    · exact hpending row' hrow' heq
  case shaped => exact h.shaped
  case rows =>
    intro r hr
    refine ⟨(h.rows r hr).1, fun row' hrow' => ?_⟩
    obtain ⟨a, ha, hfacts⟩ := (h.rows r hr).2 row' hrow'
    exact ⟨a, List.mem_append_left _ ha, hfacts⟩
  case writer =>
    intro a ha k hk
    rcases hof a ha with ha | rfl
    · exact h.writer a ha k hk
    · cases hk
  case inRange => exact h.inRange
  case unused =>
    intro a ha
    rcases hof a ha with ha | rfl
    · exact h.unused a ha
    · exact hnew
  case table =>
    intro row' hrow'
    rcases List.mem_append.mp hrow' with hrow' | hrow'
    · obtain ⟨a, ha, harow⟩ := h.table row' hrow'
      exact ⟨a, List.mem_append_left _ ha, harow⟩
    · obtain rfl := List.mem_singleton.mp hrow'
      exact ⟨_, List.mem_append_right _ (List.mem_singleton_self _), rfl⟩
  case kept =>
    intro a ha
    rcases hof a ha with ha | rfl
    · exact (h.kept a ha).imp_left (List.mem_append_left _)
    · exact .inl (List.mem_append_right _ (List.mem_singleton_self _))
  case gone =>
    intro r hr rows hreleased row' hrow' hmem
    rcases List.mem_append.mp hmem with hmem | hmem
    · exact h.gone r hr rows hreleased row' hrow' hmem
    · obtain rfl := List.mem_singleton.mp hmem
      obtain ⟨a, ha, harow, -⟩ := (h.rows r hr).2 _ (by rw [hreleased]; exact hrow')
      have hlt := h.below a.row (List.mem_append_left _ (List.mem_map_of_mem ha))
      rw [harow] at hlt
      exact absurd hlt (lt_irrefl _)

theorem of_stageOf (h : w.stageOf k = some stage) :
    ∃ r ∈ w.reservations, r.id = k ∧ r.stage = stage := by
  obtain ⟨r, hlookup, hstage⟩ := Option.map_eq_some_iff.mp h
  obtain ⟨hr, hid⟩ := Keyed.mem_of_lookup hlookup
  exact ⟨r, hr, hid, hstage⟩

/-- Every statement keeps the invariant. -/
theorem PortInv.step (h : PortInv w) (hs : portStep w event = some w') : PortInv w' := by
  cases event with
  | updateHost hostId host =>
      obtain rfl := Option.some.inj hs
      exact { h with }
  | postPort instanceId hostId ipv6Only body random =>
      obtain rfl := Option.some.inj hs
      exact h.begin fun is his rg hrg => PortRequest.items_inRange hrg his
  | postPortsBatch instanceId hostId ipv6Only body remainingQuota random =>
      obtain rfl := Option.some.inj hs
      exact h.begin fun is his rg hrg => PortBatch.items_inRange hrg his
  | reservePortMappings items =>
      obtain rfl := Option.some.inj hs
      exact h.begin fun is _ rg hrg => by cases hrg
  | lock k =>
      simp only [portStep] at hs
      split at hs
      · rename_i r hlookup
        obtain ⟨hr, rfl⟩ := Keyed.mem_of_lookup hlookup
        split at hs
        · rename_i hbegun
          split at hs
          · rename_i hitems
            obtain rfl := Option.some.inj hs
            refine h.goto hr (by rw [hbegun]; rfl) rfl rfl ?_
            simp [PortReservation.Shaped, hitems]
          · split at hs
            · cases hs
            · obtain rfl := Option.some.inj hs
              exact h.goto hr (by rw [hbegun]; rfl) rfl rfl trivial
        · cases hs
      · cases hs
  | findConflicts k =>
      simp only [portStep] at hs
      split at hs
      · rename_i r hlookup
        obtain ⟨hr, rfl⟩ := Keyed.mem_of_lookup hlookup
        split at hs
        · rename_i hlocked
          obtain rfl := Option.some.inj hs
          have hnone : r.stage.rows = [] := by rw [hlocked]; rfl
          split
          · exact h.goto hr hnone rfl rfl trivial
          · exact h.goto hr hnone rfl rfl rfl
        · cases hs
      · cases hs
  | create k =>
      simp only [portStep] at hs
      split at hs
      · rename_i item rest created hstageOf
        obtain ⟨r, hr, rfl, hstage⟩ := of_stageOf hstageOf
        split at hs
        · cases hs
        · rename_i hwait
          obtain rfl := Option.some.inj hs
          exact h.create hr hstage (by simpa using hwait)
      · cases hs
  | commit k =>
      simp only [portStep] at hs
      split at hs
      · rename_i created hstageOf
        obtain ⟨r, hr, rfl, hstage⟩ := of_stageOf hstageOf
        obtain rfl := Option.some.inj hs
        exact h.commit hr hstage
      · cases hs
  | abort k =>
      have hfailed : ∀ stage : ReservationStage, w.stageOf k = some stage → stage.rows = [] →
          PortInv (w.goto k .failed) := by
        intro stage hstageOf hrows
        obtain ⟨r, hr, rfl, rfl⟩ := of_stageOf hstageOf
        exact h.goto hr hrows rfl rfl trivial
      simp only [portStep] at hs
      split at hs
      · rename_i hbegun
        obtain rfl := Option.some.inj hs
        exact hfailed _ hbegun rfl
      · rename_i hlocked
        obtain rfl := Option.some.inj hs
        exact hfailed _ hlocked rfl
      · rename_i hcreating
        obtain rfl := Option.some.inj hs
        exact hfailed _ hcreating rfl
      · cases hs
  | releasePortMappings k =>
      simp only [portStep] at hs
      split at hs
      · rename_i rows hstageOf
        obtain ⟨r, hr, rfl, hstage⟩ := of_stageOf hstageOf
        obtain rfl := Option.some.inj hs
        exact h.release hr hstage
      · cases hs
  | createPortMapping item =>
      simp only [portStep] at hs
      split at hs
      · cases hs
      · rename_i hpending
        split at hs
        · obtain rfl := Option.some.inj hs
          exact { h with below := fun row hrow => (h.below row hrow).trans (Nat.lt_succ_self _) }
        · rename_i hfree
          obtain rfl := Option.some.inj hs
          exact h.createPortMapping hpending hfree
  | deleteMappings ids =>
      obtain rfl := Option.some.inj hs
      exact h.drop fun id hid => hid

end Invariant

/-- A table as the database keeps it: ids and triples are unique. -/
structure PortTable (mappings : List PortMapping) (nextId : ℕ) : Prop where
  ids : (mappings.map PortMapping.id).Nodup
  below : ∀ row ∈ mappings, row.id < nextId
  triples : (mappings.map PortMapping.triple).Nodup

/-- A start from any table. -/
def portStart (hosts : List (ℕ × NatPorts)) (mappings : List PortMapping) (nextId : ℕ) :
    PortWorld where
  hosts := hosts
  mappings := mappings
  nextId := nextId
  added := mappings.map fun row => { row, reservation := none, before := [] }

theorem portInv_start {hosts : List (ℕ × NatPorts)} {mappings : List PortMapping} {nextId : ℕ}
    (h : PortTable mappings nextId) : PortInv (portStart hosts mappings nextId) := by
  have hadded : (portStart hosts mappings nextId).added.map (·.row) = mappings := by
    simp [portStart, Function.comp_def]
  have hpending : (portStart hosts mappings nextId).pending = [] := rfl
  constructor
  case ids => rw [hadded, hpending, List.append_nil]; exact h.ids
  case below => rw [hadded, hpending, List.append_nil]; exact h.below
  case triples => rw [hpending, List.append_nil]; exact h.triples
  all_goals simp [portStart]

/-- What the three allocators return, for any table. -/
structure AllocatorsSound (mappings : List PortMapping) : Prop where
  one : ∀ (host : NatPorts) (hostId : ℕ) (protocol : PortProtocol) (random : ℕ) (range : ℕ × ℕ),
    host.range = some range → Allocates range (usedPorts mappings hostId [protocol]) 1
      (allocatePort mappings host hostId protocol random).toList
  many : ∀ (host : NatPorts) (hostId count : ℕ) (protocol : PortProtocol) (both : Bool)
    (random : ℕ → ℕ) (range : ℕ × ℕ), host.range = some range →
      Allocates range (usedPorts mappings hostId (checkedProtocols protocol both)) count
        (allocatePorts mappings host hostId count protocol both random)
  suggested : ∀ (host : NatPorts) (hostId count : ℕ) (protocol : PortProtocol)
    (excludePorts : List ℕ) (both : Bool) (range : ℕ × ℕ), host.range = some range →
      Allocates range (usedPorts mappings hostId (checkedProtocols protocol both) ++ excludePorts)
        count (suggestAvailablePorts mappings host hostId count protocol excludePorts both)
  none : ∀ (host : NatPorts) (hostId count : ℕ) (protocol : PortProtocol) (excludePorts : List ℕ)
    (both : Bool) (i : ℕ) (random : ℕ → ℕ), host.range = none →
      allocatePort mappings host hostId protocol i = none ∧
        allocatePorts mappings host hostId count protocol both random = [] ∧
          suggestAvailablePorts mappings host hostId count protocol excludePorts both = []

/-- From any table and in every order of statements, reservations have all their rows or none and
drop no row but their own; and on every table reached the allocators return free ports, as many as
were asked for unless fewer are free. -/
theorem ports_kept {hosts : List (ℕ × NatPorts)} {mappings : List PortMapping} {nextId : ℕ}
    {w : PortWorld} (h : PortTable mappings nextId)
    (hrun : Machine.Reach portStep Machine.free (portStart hosts mappings nextId) w) :
    PortsSafe w ∧ AllocatorsSound w.mappings := by
  refine ⟨(hrun.invariant (portInv_start h) fun hinv _ hs => hinv.step hs).safe, ?_⟩
  constructor
  case one => exact fun _ _ _ random _ hrange => allocatePort_spec hrange random
  case many => exact fun _ _ _ _ _ random _ hrange => allocatePorts_spec hrange random
  case suggested => exact fun _ _ _ _ exclude _ _ hrange => suggestAvailablePorts_spec hrange exclude
  case none =>
    intro host hostId count protocol exclude both i random hrange
    simp [allocatePort, allocatePorts, suggestAvailablePorts, hrange]

/-- A batch and a copied instance race for port 101: the batch, which has made one of its rows, has
none in the end.  A second batch is released and leaves the copy's row alone. -/
theorem ports_kept_raced :
    let udp : PortMapping := ⟨⟨1, 7, .udp, 100, 53, none⟩, 4⟩
    let copy : PortMapping := ⟨⟨3, 7, .tcp, 101, 22, none⟩, 6⟩
    ∃ w : PortWorld,
      Machine.Reach portStep Machine.free (portStart [(7, ⟨some 100, some 103⟩)] [udp] 5) w ∧
      (PortsSafe w ∧ AllocatorsSound w.mappings) ∧ w.mappings = [udp, copy] ∧
      w.reservations.map (·.stage) = [.failed,
        .released [⟨⟨2, 7, .tcp, 102, 80, none⟩, 7⟩, ⟨⟨2, 7, .udp, 102, 80, none⟩, 8⟩]] := by
  intro udp copy
  let events : List PortEvent :=
    [.postPortsBatch 2 7 false
        { protocol := .tcp, privatePortStart := 80, privatePortEnd := 81
          publicPortStart := some 100, publicPortEnd := some 101 } 9 [],
      .lock 0, .findConflicts 0, .create 0, .createPortMapping copy.toReservePortMappingInput,
      .create 0,
      .postPortsBatch 2 7 false
        { protocol := .tcp, both := true, privatePortStart := 80, privatePortEnd := 80 } 9 [0, 1],
      .lock 1, .findConflicts 1, .create 1, .create 1, .commit 1, .releasePortMappings 1]
  have htable : PortTable [udp] 5 := ⟨by decide, by decide, by decide⟩
  have hends : (Machine.exec portStep (portStart [(7, ⟨some 100, some 103⟩)] [udp] 5) events).any
      (fun w => decide (w.mappings = [udp, copy] ∧ w.reservations.map (·.stage) = [.failed,
        .released [⟨⟨2, 7, .tcp, 102, 80, none⟩, 7⟩, ⟨⟨2, 7, .udp, 102, 80, none⟩, 8⟩]])) =
        true := by decide
  obtain ⟨w, hexec, hfacts⟩ := Option.any_eq_true _ _ |>.mp hends
  have hrun := Machine.reach_of_exec hexec
  exact ⟨w, hrun, ports_kept htable hrun, of_decide_eq_true hfacts⟩

/-- Asked for two ports where one is free, an allocation returns that one. -/
theorem allocatePorts_fewer :
    ¬∀ (mappings : List PortMapping) (host : NatPorts) (hostId count : ℕ) (protocol : PortProtocol)
      (both : Bool) (random : ℕ → ℕ),
      allocatePorts mappings host hostId count protocol both random = [] ∨
        (allocatePorts mappings host hostId count protocol both random).length = count := by
  intro h
  have hone : allocatePorts [] ⟨some 100, some 100⟩ 7 2 .tcp false (fun _ => 0) = [100] := by decide
  rcases h [] ⟨some 100, some 100⟩ 7 2 .tcp false (fun _ => 0) with hnone | htwo
  · rw [hone] at hnone
    cases hnone
  · rw [hone] at htwo
    cases htwo

end Incudal
