/-
# `HostConflicts` — hosts that share an address

Each host has aliases, the address that its connection url names and those that
it resolves to.  Two hosts with an alias in common are in conflict, and each
conflict is a row: a pair of hosts, the lower id first, and the address.

A snapshot or a failed resolution replaces aliases of one host and then repairs
the rows of the addresses it has touched, those before the change and those
after it.  The repair of these addresses is right for the aliases as they are
(`syncHostAddressConflicts_active`); no other address has changed, so the rows
match the aliases everywhere, in every run (`conflicts_match`).
-/
import Incudal.Basic
import Incudal.Lib.Delimited
import Incudal.Lib.InsertionMap
import Incudal.Lib.Machine
import Mathlib

namespace Incudal

/-! ## Rows -/

inductive HostAddressKind
  | domain | ipv4 | ipv6
deriving DecidableEq, Repr

inductive HostAddressSource
  | input | resolved
deriving DecidableEq, Repr

inductive HostAddressConflictStatus
  | active | resolved
deriving DecidableEq, Repr

inductive HostAddressCheckTrigger
  | create | update | backfill | poll
deriving DecidableEq, Repr

structure NormalizedAddress where
  address : String
  kind : HostAddressKind
deriving DecidableEq, Repr

structure HostAddressAliasInput where
  address : String
  kind : HostAddressKind
  source : HostAddressSource
deriving DecidableEq, Repr

/-- A row of `host_address_aliases`. -/
structure HostAddressAlias extends HostAddressAliasInput where
  hostId : ℕ
deriving DecidableEq, Repr

/-- The columns of its unique index. -/
def HostAddressAlias.place (a : HostAddressAlias) : ℕ × String := (a.hostId, a.address)

def HostAddressAliasInput.row (a : HostAddressAliasInput) (hostId : ℕ) : HostAddressAlias :=
  { a with hostId }

/-- A row of `host_address_conflicts`. -/
structure HostAddressConflict where
  id : ℕ
  hostAId : ℕ
  hostBId : ℕ
  address : String
  status : HostAddressConflictStatus
  resolvedAt : Option Time := none
deriving DecidableEq, Repr

/-- The updates of a conflict: found again, still there, gone. -/
def HostAddressConflict.reactivate (c : HostAddressConflict) : HostAddressConflict :=
  { c with status := .active, resolvedAt := none }

def HostAddressConflict.confirm (c : HostAddressConflict) : HostAddressConflict :=
  { c with resolvedAt := none }

def HostAddressConflict.resolve (now : Time) (c : HostAddressConflict) : HostAddressConflict :=
  { c with status := .resolved, resolvedAt := some now }

/-- Two hosts and an address: the unique index of the conflicts. -/
structure ConflictPlace where
  hostAId : ℕ
  hostBId : ℕ
  address : String
deriving DecidableEq, Repr

def HostAddressConflict.place (c : HostAddressConflict) : ConflictPlace :=
  ⟨c.hostAId, c.hostBId, c.address⟩

structure HostAddressConflictInfo where
  id : ℕ
  address : String
  hostAId : ℕ
  hostAName : String
  hostBId : ℕ
  hostBName : String
  wasCreated : Bool
deriving DecidableEq, Repr

def HostAddressConflictInfo.place (c : HostAddressConflictInfo) : ConflictPlace :=
  ⟨c.hostAId, c.hostBId, c.address⟩

/-- The columns of `hosts` that a conflict shows. -/
structure RegisteredHost where
  id : ℕ
  name : String
deriving DecidableEq, Repr

/-- A row of the log of resolutions: the aliases of a snapshot, or the error code of a failure. -/
structure HostAddressResolutionLog where
  hostId : ℕ
  inputAddress : String
  inputKind : HostAddressKind
  trigger : HostAddressCheckTrigger
  resolvedAddresses : List String
  /-- the text of the error, for the status `failed` -/
  error : Option String
  details : List String
deriving DecidableEq, Repr

structure HostRegistry where
  hosts : List RegisteredHost := []
  aliases : List HostAddressAlias := []
  conflicts : List HostAddressConflict := []
  nextConflictId : ℕ := 1
  resolutionLogs : List HostAddressResolutionLog := []
deriving DecidableEq, Repr

structure HostAddressRegistryError where
  errorCode : String
  details : Option String
  message : String
deriving DecidableEq, Repr

/-! ## Snapshots -/

/-- What a host's address is known to be; the aliases are those of the input and of what it
resolves to. -/
structure HostAddressSnapshot where
  input : NormalizedAddress
  resolved : List NormalizedAddress
  aliases : List HostAddressAliasInput
  covers : ∀ address, (∃ a ∈ aliases, a.address = address) ↔
    address = input.address ∨ ∃ r ∈ resolved, r.address = address
deriving DecidableEq, Repr

def NormalizedAddress.from (a : NormalizedAddress) (source : HostAddressSource) :
    HostAddressAliasInput :=
  ⟨a.address, a.kind, source⟩

/-- The map of `buildSnapshot`; what is resolved replaces an input of the same address. -/
def snapshotAliases (input : NormalizedAddress) (resolved : List NormalizedAddress) :
    List (String × HostAddressAliasInput) :=
  resolved.foldl (fun m item => InsertionMap.set item.address (item.from .resolved) m)
    (InsertionMap.set input.address (input.from .input) [])

/-- The entries of the map are aliases under their addresses. -/
theorem snapshotAliases_entry {input : NormalizedAddress} {resolved : List NormalizedAddress}
    {address : String} {data : HostAddressAliasInput}
    (h : (address, data) ∈ snapshotAliases input resolved) : data.address = address := by
  rcases InsertionMap.mem_foldl_set h with h | ⟨r, -, rfl, rfl⟩
  · obtain ⟨rfl, rfl⟩ := Prod.mk.inj ((InsertionMap.mem_of_mem_set h).resolve_left List.not_mem_nil)
    rfl
  · rfl

def buildSnapshot (input : NormalizedAddress) (resolved : List NormalizedAddress) :
    HostAddressSnapshot where
  input := input
  resolved := resolved
  aliases := (snapshotAliases input resolved).map Prod.snd
  covers address := by
    have hnodup : ((snapshotAliases input resolved).map Prod.fst).Nodup :=
      InsertionMap.nodup_foldl_set (fun _ (item : NormalizedAddress) => item.from .resolved)
        (InsertionMap.nodup_set List.nodup_nil)
    have hkeys : (InsertionMap.get address (snapshotAliases input resolved)).isSome ↔
        address = input.address ∨ ∃ r ∈ resolved, r.address = address := by
      rw [snapshotAliases, InsertionMap.isSome_get_foldl_set, InsertionMap.get_set]
      by_cases h : address = input.address
      · simp [h]
      · simp [h]
    rw [← hkeys, Option.isSome_iff_exists]
    constructor
    · rintro ⟨data, hdata, rfl⟩
      obtain ⟨⟨address, data⟩, hentry, rfl⟩ := List.mem_map.mp hdata
      rw [snapshotAliases_entry hentry]
      exact ⟨data, (InsertionMap.mem_iff_get hnodup).mp hentry⟩
    · rintro ⟨data, hget⟩
      have hentry := (InsertionMap.mem_iff_get hnodup).mpr hget
      exact ⟨data, List.mem_map.mpr ⟨_, hentry, rfl⟩, snapshotAliases_entry hentry⟩

/-! ## Aliases -/

def upsertHostInputAlias (hostId : ℕ) (data : HostAddressAliasInput)
    (rows : List HostAddressAlias) : List HostAddressAlias :=
  match Keyed.lookup HostAddressAlias.place (hostId, data.address) rows with
  | some _ =>
      Keyed.modify HostAddressAlias.place (hostId, data.address)
        (fun row => { row with kind := data.kind, source := data.source }) rows
  | none => rows ++ [data.row hostId]

/-- `createMany` with `skipDuplicates`. -/
def createAliases (hostId : ℕ) (aliases : List HostAddressAliasInput)
    (rows : List HostAddressAlias) : List HostAddressAlias :=
  aliases.foldl (fun rows data =>
    match Keyed.lookup HostAddressAlias.place (hostId, data.address) rows with
    | some _ => rows
    | none => rows ++ [data.row hostId]) rows

def replaceHostResolvedAliases (hostId : ℕ) (aliases : List HostAddressAliasInput)
    (rows : List HostAddressAlias) : List HostAddressAlias :=
  createAliases hostId aliases
    (rows.filter fun row => !(row.hostId == hostId && row.source == .resolved))

/-- The `deleteMany` of the input aliases other than the one that is now named. -/
def deleteOtherInputs (hostId : ℕ) (address : String) (rows : List HostAddressAlias) :
    List HostAddressAlias :=
  rows.filter fun row => !(row.hostId == hostId && row.source == .input && row.address != address)

/-! ## The repair of conflicts -/

/-- `` `${hostA.id}:${hostB.id}:${address}` ``. -/
def conflictKey (p : ConflictPlace) : String :=
  toString p.hostAId ++ ":" ++ toString p.hostBId ++ ":" ++ p.address

/-- The rows while pairs are looked at, the conflicts found and the keys that are desired. -/
structure ConflictSync where
  conflicts : List HostAddressConflict
  nextConflictId : ℕ
  createdConflicts : List HostAddressConflictInfo := []
  desiredKeys : List String := []

def conflictInfo (id : ℕ) (address : String) (hostA hostB : RegisteredHost) :
    HostAddressConflictInfo where
  id := id
  address := address
  hostAId := hostA.id
  hostAName := hostA.name
  hostBId := hostB.id
  hostBName := hostB.name
  wasCreated := true

/-- The body of the inner loop: a pair of hosts that share the address. -/
def ConflictSync.detect (st : ConflictSync) (address : String) (hostA hostB : RegisteredHost) :
    ConflictSync :=
  let place : ConflictPlace := ⟨hostA.id, hostB.id, address⟩
  let st := { st with desiredKeys := conflictKey place :: st.desiredKeys }
  match Keyed.lookup HostAddressConflict.place place st.conflicts with
  | none =>
      { st with
          conflicts := st.conflicts ++
            [{ id := st.nextConflictId, hostAId := hostA.id, hostBId := hostB.id, address
               status := .active }]
          nextConflictId := st.nextConflictId + 1
          createdConflicts := st.createdConflicts ++
            [conflictInfo st.nextConflictId address hostA hostB] }
  | some existing =>
      match existing.status with
      | .resolved =>
          { st with
              conflicts := Keyed.modify HostAddressConflict.id existing.id
                HostAddressConflict.reactivate st.conflicts
              createdConflicts := st.createdConflicts ++
                [conflictInfo existing.id address hostA hostB] }
      | .active =>
          { st with
              conflicts := Keyed.modify HostAddressConflict.id existing.id
                HostAddressConflict.confirm st.conflicts }

/-- The pairs `i < j` of the two inner loops. -/
def hostPairs : List RegisteredHost → List (RegisteredHost × RegisteredHost)
  | [] => []
  | hostA :: hosts => hosts.map (hostA, ·) ++ hostPairs hosts

def uniqueHosts (found : List RegisteredHost) : List (ℕ × RegisteredHost) :=
  found.foldl (fun m host => InsertionMap.set host.id host m) []

/-- The hosts of a group of aliases, each once and in the order of their ids. -/
def groupHosts (hosts : List RegisteredHost) (aliasGroup : List HostAddressAlias) :
    List RegisteredHost :=
  let found := aliasGroup.filterMap fun row =>
    Keyed.lookup RegisteredHost.id row.hostId hosts
  ((uniqueHosts found).map Prod.snd).insertionSort fun a b => a.id ≤ b.id

def ConflictSync.detectGroup (hosts : List RegisteredHost) (st : ConflictSync)
    (group : String × List HostAddressAlias) : ConflictSync :=
  let hosts := groupHosts hosts group.2
  if hosts.length < 2 then st
  else (hostPairs hosts).foldl (fun st pair => st.detect group.1 pair.1 pair.2) st

/-- The last loop: active rows of these addresses that are no longer desired. -/
def resolveConflicts (desiredKeys : List String) (uniqueAddresses : List String) (now : Time)
    (rows : List HostAddressConflict) : List HostAddressConflict :=
  let existingActiveConflicts := rows.filter fun c =>
    decide (c.address ∈ uniqueAddresses) && c.status == .active
  existingActiveConflicts.foldl (fun rows conflict =>
    if conflictKey conflict.place ∈ desiredKeys then rows
    else Keyed.modify HostAddressConflict.id conflict.id (HostAddressConflict.resolve now) rows) rows

section Registry

/- The order of addresses is that of the database's collation; parsing a url is the platform's. -/
variable (addressLE : String → String → Bool)
  (extractInputAddress : String → Option NormalizedAddress)

/-- `orderBy: [{ address: 'asc' }, { hostId: 'asc' }]`. -/
def aliasLE (a b : HostAddressAlias) : Prop :=
  if a.address = b.address then a.hostId ≤ b.hostId else addressLE a.address b.address = true

instance : DecidableRel (aliasLE addressLE) := fun _ _ =>
  inferInstanceAs (Decidable (ite _ _ _))

/-- The groups of aliases that are looked at. -/
def aliasesByAddress (addresses : List String) (aliases : List HostAddressAlias) :
    List (String × List HostAddressAlias) :=
  InsertionMap.groupBy (·.address)
    ((aliases.filter fun a => decide (a.address ∈ addresses)).insertionSort (aliasLE addressLE))

def syncHostAddressConflicts (w : HostRegistry) (addresses : List String) (now : Time) :
    HostRegistry × List HostAddressConflictInfo :=
  if addresses.length = 0 then (w, [])
  else
    let uniqueAddresses := addresses.dedup
    let st : ConflictSync := { conflicts := w.conflicts, nextConflictId := w.nextConflictId }
    let st := (aliasesByAddress addressLE uniqueAddresses w.aliases).foldl
      (ConflictSync.detectGroup w.hosts) st
    ({ w with
        conflicts := resolveConflicts st.desiredKeys uniqueAddresses now st.conflicts
        nextConflictId := st.nextConflictId },
      st.createdConflicts)

/-! ## The registry -/

/-- `existingAliases` of the host. -/
def HostRegistry.addressesOf (w : HostRegistry) (hostId : ℕ) : List String :=
  (w.aliases.filter fun a => a.hostId == hostId).map (·.address)

def persistHostAddressSnapshot (w : HostRegistry) (hostId : ℕ) (snapshot : HostAddressSnapshot)
    (trigger : HostAddressCheckTrigger) (now : Time) :
    HostRegistry × List HostAddressConflictInfo :=
  let aliases := deleteOtherInputs hostId snapshot.input.address w.aliases
  let aliases := upsertHostInputAlias hostId (snapshot.input.from .input) aliases
  let aliases := replaceHostResolvedAliases hostId
    (snapshot.resolved.map fun item => item.from .resolved) aliases
  let log : HostAddressResolutionLog :=
    { hostId, inputAddress := snapshot.input.address, inputKind := snapshot.input.kind, trigger
      resolvedAddresses := snapshot.resolved.map (·.address), error := none
      details := snapshot.aliases.map (·.address) }
  syncHostAddressConflicts addressLE
    { w with aliases, resolutionLogs := w.resolutionLogs ++ [log] }
    (w.addressesOf hostId ++ snapshot.aliases.map (·.address)) now

/-- An url without a hostname makes the call fail. -/
def recordHostAddressResolutionFailure (w : HostRegistry) (hostId : ℕ) (url : String)
    (trigger : HostAddressCheckTrigger) (error : HostAddressRegistryError) (now : Time) :
    Option (HostRegistry × List HostAddressConflictInfo) :=
  match extractInputAddress url with
  | none => none
  | some input =>
      let aliases := deleteOtherInputs hostId input.address w.aliases
      let aliases := upsertHostInputAlias hostId (input.from .input) aliases
      let log : HostAddressResolutionLog :=
        { hostId, inputAddress := input.address, inputKind := input.kind, trigger
          resolvedAddresses := [], error := some ((error.details.filter (· != "")).getD error.message)
          details := [error.errorCode] }
      some (syncHostAddressConflicts addressLE
        { w with aliases, resolutionLogs := w.resolutionLogs ++ [log] }
        (w.addressesOf hostId ++ [input.address]) now)

/-- What happens to the registry; the two calls are transactions under its lock. -/
inductive RegistryEvent
  | persistHostAddressSnapshot (hostId : ℕ) (snapshot : HostAddressSnapshot)
      (trigger : HostAddressCheckTrigger) (now : Time)
  | recordHostAddressResolutionFailure (hostId : ℕ) (url : String)
      (trigger : HostAddressCheckTrigger) (error : HostAddressRegistryError) (now : Time)
  | addHost (host : RegisteredHost)
  | removeHost (hostId : ℕ)

/-- The registry afterwards and the conflicts returned.  An alias of a host that does not exist
breaks its foreign key; the rows of a host go with it. -/
def registryCall (w : HostRegistry) :
    RegistryEvent → Option (HostRegistry × List HostAddressConflictInfo)
  | .persistHostAddressSnapshot hostId snapshot trigger now =>
      if w.hosts.any (·.id == hostId) then
        some (persistHostAddressSnapshot addressLE w hostId snapshot trigger now)
      else none
  | .recordHostAddressResolutionFailure hostId url trigger error now =>
      if w.hosts.any (·.id == hostId) then
        recordHostAddressResolutionFailure addressLE extractInputAddress w hostId url trigger error
          now
      else none
  | .addHost host =>
      if w.hosts.any (·.id == host.id) then none
      else some ({ w with hosts := w.hosts ++ [host] }, [])
  | .removeHost hostId =>
      some ({ w with
        hosts := Keyed.erase RegisteredHost.id hostId w.hosts
        aliases := w.aliases.filter fun a => a.hostId ≠ hostId
        conflicts := w.conflicts.filter fun c => c.hostAId ≠ hostId ∧ c.hostBId ≠ hostId
        resolutionLogs := w.resolutionLogs.filter fun l => l.hostId ≠ hostId }, [])

def registryStep (w : HostRegistry) (event : RegistryEvent) : Option HostRegistry :=
  (registryCall addressLE extractInputAddress w event).map Prod.fst

end Registry

/-! ## Rows and pairs -/

/-- The pairs with an active row. -/
def activePlaces (rows : List HostAddressConflict) : List ConflictPlace :=
  (rows.filter fun c => c.status == .active).map HostAddressConflict.place

/-- The host has an alias with the address. -/
def HasAlias (rows : List HostAddressAlias) (hostId : ℕ) (address : String) : Prop :=
  ∃ a ∈ rows, a.place = (hostId, address)

/-- The two hosts of a place both have its address, the lower id first. -/
def Collides (rows : List HostAddressAlias) (p : ConflictPlace) : Prop :=
  p.hostAId < p.hostBId ∧ HasAlias rows p.hostAId p.address ∧ HasAlias rows p.hostBId p.address

/-- A table of conflicts with its indexes. -/
structure ConflictTable (rows : List HostAddressConflict) (nextId : ℕ) : Prop where
  ids : (rows.map HostAddressConflict.id).Nodup
  below : ∀ c ∈ rows, c.id < nextId
  places : (rows.map HostAddressConflict.place).Nodup

section Conflicts

variable {rows : List HostAddressConflict} {nextId : ℕ} {c : HostAddressConflict}
  {p q : ConflictPlace}

theorem mem_activePlaces :
    p ∈ activePlaces rows ↔ ∃ c ∈ rows, c.status = .active ∧ c.place = p := by
  simp [activePlaces, and_assoc]

theorem ConflictTable.nodup_active (h : ConflictTable rows nextId) : (activePlaces rows).Nodup :=
  h.places.sublist (List.filter_sublist.map _)

/-- One row per id and one per place. -/
theorem ConflictTable.eq_of_place (h : ConflictTable rows nextId) {c c' : HostAddressConflict}
    (hc : c ∈ rows) (hc' : c' ∈ rows) (he : c.place = c'.place) : c = c' :=
  List.inj_on_of_nodup_map h.places hc hc' he

theorem ConflictTable.eq_of_id (h : ConflictTable rows nextId) {c c' : HostAddressConflict}
    (hc : c ∈ rows) (hc' : c' ∈ rows) (he : c.id = c'.id) : c = c' :=
  List.inj_on_of_nodup_map h.ids hc hc' he

section Rewrite

/-- An update that leaves a row its indexes. -/
structure KeepsPlace (f : HostAddressConflict → HostAddressConflict) : Prop where
  id : ∀ c, (f c).id = c.id
  place : ∀ c, (f c).place = c.place

theorem keepsPlace_reactivate : KeepsPlace .reactivate := ⟨fun _ => rfl, fun _ => rfl⟩

theorem keepsPlace_confirm : KeepsPlace .confirm := ⟨fun _ => rfl, fun _ => rfl⟩

theorem keepsPlace_resolve (now : Time) : KeepsPlace (.resolve now) := ⟨fun _ => rfl, fun _ => rfl⟩

variable {f : HostAddressConflict → HostAddressConflict}

theorem ConflictTable.modify (h : ConflictTable rows nextId) (hf : KeepsPlace f) (k : ℕ) :
    ConflictTable (Keyed.modify HostAddressConflict.id k f rows) nextId where
  ids := by
    rw [Keyed.map_key_modify hf.id]
    exact h.ids
  below := by
    intro c hc
    obtain ⟨c, hmem, rfl⟩ := Keyed.mem_modify.mp hc
    split
    · exact (hf.id c).trans_lt (h.below c hmem)
    · exact h.below c hmem
  places := by
    rw [Keyed.map_modify_same hf.place]
    exact h.places

/-- Rewriting the status of a row decides for its place, and for no other. -/
theorem ConflictTable.mem_active_modify (h : ConflictTable rows nextId) (hc : c ∈ rows)
    (hf : KeepsPlace f) :
    p ∈ activePlaces (Keyed.modify HostAddressConflict.id c.id f rows) ↔
      if p = c.place then (f c).status = .active else p ∈ activePlaces rows := by
  rw [mem_activePlaces]
  constructor
  · rintro ⟨d, hd, hstatus, rfl⟩
    obtain ⟨d, hmem, rfl⟩ := Keyed.mem_modify.mp hd
    by_cases hid : d.id = c.id
    · obtain rfl := h.eq_of_id hmem hc hid
      rw [if_pos rfl] at hstatus ⊢
      rw [if_pos (hf.place d)]
      exact hstatus
    · rw [if_neg hid] at hstatus ⊢
      rw [if_neg fun he => hid (congrArg _ (h.eq_of_place hmem hc he))]
      exact mem_activePlaces.mpr ⟨d, hmem, hstatus, rfl⟩
  · intro hp
    split at hp
    · rename_i he
      exact ⟨f c, Keyed.mem_modify.mpr ⟨c, hc, (if_pos rfl).symm⟩, hp, (hf.place c).trans he.symm⟩
    · rename_i hne
      obtain ⟨d, hmem, hstatus, rfl⟩ := mem_activePlaces.mp hp
      have hid : d.id ≠ c.id := fun he => hne (congrArg _ (h.eq_of_id hmem hc he))
      exact ⟨d, Keyed.mem_modify_of_ne hmem hid rfl, hstatus, rfl⟩

end Rewrite

/-- Two numerals and the rest, with colons between them: a key determines its place. -/
theorem conflictKey_injective : Function.Injective conflictKey := by
  rintro ⟨a, b, x⟩ ⟨a', b', x'⟩ h
  have hcolon : ∀ n : ℕ, ':' ∉ Nat.toDigits 10 n := Delimited.not_mem_toDigits rfl
  have htext := congrArg String.toList h
  have hkey : ∀ a b : ℕ, ∀ x : String, (conflictKey ⟨a, b, x⟩).toList =
      Nat.toDigits 10 a ++ ':' :: (Nat.toDigits 10 b ++ ':' :: x.toList) := by
    intro a b x
    simp [conflictKey]
  rw [hkey, hkey] at htext
  obtain ⟨ha, hrest⟩ := (Delimited.append_cons_inj (hcolon a) (hcolon a')).mp htext
  obtain ⟨hb, hx⟩ := (Delimited.append_cons_inj (hcolon b) (hcolon b')).mp hrest
  obtain rfl := Delimited.toDigits_inj.mp ha
  obtain rfl := Delimited.toDigits_inj.mp hb
  obtain rfl := String.toList_injective hx
  rfl

end Conflicts

/-! ## What the repair does -/

/-- What looking at `places` makes of `rows`: these places are active, the conflicts found are
those of them that were not, and their keys are the desired ones. -/
structure Detected (rows : List HostAddressConflict) (places : List ConflictPlace)
    (st : ConflictSync) : Prop where
  table : ConflictTable st.conflicts st.nextConflictId
  active : ∀ p, p ∈ activePlaces st.conflicts ↔ p ∈ activePlaces rows ∨ p ∈ places
  once : (st.createdConflicts.map HostAddressConflictInfo.place).Nodup
  created : ∀ p, p ∈ st.createdConflicts.map HostAddressConflictInfo.place ↔
    p ∈ places ∧ p ∉ activePlaces rows
  desired : ∀ p, conflictKey p ∈ st.desiredKeys ↔ p ∈ places

section Sync

variable {rows : List HostAddressConflict} {places : List ConflictPlace} {st : ConflictSync}
  {hosts : List RegisteredHost} {desiredKeys addresses : List String} {nextId : ℕ} {now : Time}

/-- A new row, whose place had none. -/
theorem ConflictTable.concat {c : HostAddressConflict} (h : ConflictTable rows nextId)
    (hid : c.id = nextId) (hplace : ∀ d ∈ rows, d.place ≠ c.place) :
    ConflictTable (rows ++ [c]) (nextId + 1) where
  ids := Keyed.nodup_append_singleton h.ids fun d hd => by
    rw [hid]
    exact (h.below d hd).ne
  below := Keyed.below_concat h.below (Nat.le_succ _) (hid ▸ Nat.lt_succ_self _)
  places := Keyed.nodup_append_singleton h.places hplace

theorem activePlaces_concat {c : HostAddressConflict} (hc : c.status = .active) :
    activePlaces (rows ++ [c]) = activePlaces rows ++ [c.place] := by
  simp [activePlaces, hc]

/-- One pair more, by what its place had before: no row, a resolved one or an active one. -/
theorem Detected.detect (h : Detected rows places st) (address : String)
    (hostA hostB : RegisteredHost) :
    Detected rows (places ++ [⟨hostA.id, hostB.id, address⟩]) (st.detect address hostA hostB) := by
  generalize hplace : (⟨hostA.id, hostB.id, address⟩ : ConflictPlace) = place
  have hkeys : ∀ p, conflictKey p ∈ conflictKey place :: st.desiredKeys ↔
      p ∈ places ++ [place] := by
    intro p
    rw [List.mem_cons, h.desired, conflictKey_injective.eq_iff, List.mem_append,
      List.mem_singleton, or_comm]
  -- the two branches that find the pair inactive differ in the row that they write
  have hfound : ∀ (rows' : List HostAddressConflict) (next id : ℕ), ConflictTable rows' next →
      place ∉ activePlaces st.conflicts →
      (∀ p, p ∈ activePlaces rows' ↔ p ∈ activePlaces st.conflicts ∨ p = place) →
      Detected rows (places ++ [place])
        { conflicts := rows', nextConflictId := next
          createdConflicts := st.createdConflicts ++ [conflictInfo id address hostA hostB]
          desiredKeys := conflictKey place :: st.desiredKeys } := by
    intro rows' next id htable hinactive hactive
    have hinfo : (conflictInfo id address hostA hostB).place = place := hplace
    have hnew : place ∉ activePlaces rows ∧ place ∉ places := by
      rw [h.active, not_or] at hinactive
      exact hinactive
    refine ⟨htable, fun p => ?_, ?_, fun p => ?_, hkeys⟩
    · show p ∈ activePlaces rows' ↔ _
      rw [hactive, h.active, List.mem_append, List.mem_singleton, or_assoc]
    · rw [List.map_append, List.map_singleton, hinfo]
      refine List.nodup_append.mpr ⟨h.once, List.nodup_singleton _, fun p hp q hq => ?_⟩
      obtain rfl := List.mem_singleton.mp hq
      rintro rfl
      exact hnew.2 ((h.created p).mp hp).1
    · rw [List.map_append, List.map_singleton, hinfo, List.mem_append, h.created,
        List.mem_append, List.mem_singleton, or_and_right]
      refine or_congr_right ⟨fun hp => ⟨hp, hp ▸ hnew.1⟩, And.left⟩
  simp only [ConflictSync.detect, hplace]
  cases hlookup : Keyed.lookup HostAddressConflict.place place st.conflicts with
  | none =>
      have hnone := Keyed.lookup_eq_none_iff.mp hlookup
      refine hfound _ _ _ (h.table.concat rfl fun d hd => ?_) ?_ fun p => ?_
      · exact fun he => hnone d hd (he.trans hplace)
      · rw [mem_activePlaces]
        rintro ⟨c, hc, -, he⟩
        exact hnone c hc he
      · rw [activePlaces_concat rfl, List.mem_append, List.mem_singleton]
        exact or_congr_right (by rw [← hplace]; rfl)
  | some existing =>
      obtain ⟨hmem, he⟩ := Keyed.mem_of_lookup hlookup
      cases hstatus : existing.status with
      | resolved =>
          simp only [hstatus]
          refine hfound _ _ _ (h.table.modify keepsPlace_reactivate _) ?_ fun p => ?_
          · rw [mem_activePlaces]
            rintro ⟨c, hc, hactive, hce⟩
            obtain rfl := h.table.eq_of_place hc hmem (hce.trans he.symm)
            rw [hstatus] at hactive
            cases hactive
          · rw [h.table.mem_active_modify hmem keepsPlace_reactivate, he]
            by_cases hp : p = place
            · simp [hp, HostAddressConflict.reactivate]
            · simp [hp]
      | active =>
          simp only [hstatus]
          have hactive : place ∈ activePlaces st.conflicts :=
            mem_activePlaces.mpr ⟨existing, hmem, hstatus, he⟩
          have hold : place ∈ activePlaces rows ∨ place ∈ places := (h.active place).mp hactive
          refine ⟨h.table.modify keepsPlace_confirm _, fun p => ?_, h.once,
            fun p => ?_, hkeys⟩
          · show p ∈ activePlaces (Keyed.modify _ _ _ st.conflicts) ↔ _
            rw [h.table.mem_active_modify hmem keepsPlace_confirm, he, List.mem_append,
              List.mem_singleton]
            by_cases hp : p = place
            · simp [hp, HostAddressConflict.confirm, hstatus]
            · simp [hp, h.active]
          · show p ∈ st.createdConflicts.map _ ↔ _
            rw [h.created, List.mem_append, List.mem_singleton]
            constructor
            · rintro ⟨hp, hrows⟩
              exact ⟨.inl hp, hrows⟩
            · rintro ⟨hp | rfl, hrows⟩
              · exact ⟨hp, hrows⟩
              · exact ⟨hold.resolve_left hrows, hrows⟩

/-- The places that a group of aliases makes desired. -/
def groupPlaces (hosts : List RegisteredHost) (group : String × List HostAddressAlias) :
    List ConflictPlace :=
  (hostPairs (groupHosts hosts group.2)).map fun pair => ⟨pair.1.id, pair.2.id, group.1⟩

theorem Detected.pairs (h : Detected rows places st) (address : String)
    (pairs : List (RegisteredHost × RegisteredHost)) :
    Detected rows (places ++ pairs.map fun pair => ⟨pair.1.id, pair.2.id, address⟩)
      (pairs.foldl (fun st pair => st.detect address pair.1 pair.2) st) := by
  induction pairs generalizing places st with
  | nil =>
      rw [List.map_nil, List.append_nil]
      exact h
  | cons pair pairs ih =>
      rw [List.map_cons, List.append_cons]
      exact ih (h.detect address pair.1 pair.2)

/-- Fewer than two hosts make no pair. -/
theorem hostPairs_eq_nil (h : hosts.length < 2) : hostPairs hosts = [] := by
  match hosts, h with
  | [], _ => rfl
  | [_], _ => rfl

variable (hosts) in
theorem Detected.groups (h : Detected rows places st)
    (groups : List (String × List HostAddressAlias)) :
    Detected rows (places ++ groups.flatMap (groupPlaces hosts))
      (groups.foldl (ConflictSync.detectGroup hosts) st) := by
  induction groups generalizing places st with
  | nil =>
      rw [List.flatMap_nil, List.append_nil]
      exact h
  | cons group groups ih =>
      rw [List.flatMap_cons, ← List.append_assoc, List.foldl_cons]
      refine ih ?_
      simp only [ConflictSync.detectGroup]
      split
      · rename_i hlength
        rw [groupPlaces, hostPairs_eq_nil hlength, List.map_nil, List.append_nil]
        exact h
      · exact h.pairs group.1 _

variable (desiredKeys now) in
/-- The last loop, over any rows of the table. -/
theorem resolve_fold (h : ConflictTable rows nextId) (cs : List HostAddressConflict)
    (hcs : ∀ c ∈ cs, ∃ d ∈ rows, d.id = c.id ∧ d.place = c.place) :
    let rows' := cs.foldl (fun rows conflict =>
      if conflictKey conflict.place ∈ desiredKeys then rows
      else Keyed.modify HostAddressConflict.id conflict.id (HostAddressConflict.resolve now) rows) rows
    ConflictTable rows' nextId ∧ ∀ p, p ∈ activePlaces rows' ↔
      p ∈ activePlaces rows ∧ ∀ c ∈ cs, c.place = p → conflictKey p ∈ desiredKeys := by
  induction cs generalizing rows with
  | nil => exact ⟨h, fun p => by simp⟩
  | cons c cs ih =>
      have hrest := fun d hd => hcs d (List.mem_cons_of_mem _ hd)
      simp only [List.foldl_cons]
      by_cases hkey : conflictKey c.place ∈ desiredKeys
      · rw [if_pos hkey]
        obtain ⟨htable, hactive⟩ := ih h hrest
        refine ⟨htable, fun p => (hactive p).trans (and_congr_right fun _ => ?_)⟩
        rw [List.forall_mem_cons]
        exact ⟨fun hp => ⟨fun he => he ▸ hkey, hp⟩, And.right⟩
      · rw [if_neg hkey]
        obtain ⟨d, hd, hid, hplace⟩ := hcs c List.mem_cons_self
        have hmodified := h.modify (keepsPlace_resolve now) c.id
        obtain ⟨htable, hactive⟩ := ih hmodified fun e he => by
          obtain ⟨e', he', hids, hplaces⟩ := hrest e he
          exact ⟨_, Keyed.mem_modify.mpr ⟨e', he', rfl⟩, by split <;> exact hids,
            by split <;> exact hplaces⟩
        refine ⟨htable, fun p => (hactive p).trans ?_⟩
        rw [← hid, h.mem_active_modify hd (keepsPlace_resolve now), hplace, List.forall_mem_cons]
        by_cases hp : p = c.place
        · subst hp
          simp [hkey, HostAddressConflict.resolve]
        · simp [hp, Ne.symm hp]

variable (desiredKeys addresses now) in
theorem resolveConflicts_spec (h : ConflictTable rows nextId) :
    ConflictTable (resolveConflicts desiredKeys addresses now rows) nextId ∧
      ∀ p, p ∈ activePlaces (resolveConflicts desiredKeys addresses now rows) ↔
        p ∈ activePlaces rows ∧ (p.address ∈ addresses → conflictKey p ∈ desiredKeys) := by
  obtain ⟨htable, hactive⟩ := resolve_fold desiredKeys now h
    (rows.filter fun c => decide (c.address ∈ addresses) && c.status == .active)
    fun c hc => ⟨c, List.mem_of_mem_filter hc, rfl, rfl⟩
  refine ⟨htable, fun p => (hactive p).trans (and_congr_right fun hp => ?_)⟩
  obtain ⟨c, hc, hstatus, rfl⟩ := mem_activePlaces.mp hp
  constructor
  · intro hdesired haddress
    refine hdesired c (List.mem_filter.mpr ⟨hc, ?_⟩) rfl
    rw [Bool.and_eq_true]
    exact ⟨decide_eq_true haddress, beq_iff_eq.mpr hstatus⟩
  · rintro hdesired d hd he
    obtain ⟨-, hd⟩ := List.mem_filter.mp hd
    refine hdesired ?_
    rw [Bool.and_eq_true, decide_eq_true_eq] at hd
    rw [← he]
    exact hd.1

end Sync

/-! ## Which pairs are desired -/

section Pairs

variable {hosts : List RegisteredHost} {group rows : List HostAddressAlias}
  {hostA hostB host : RegisteredHost} {addresses : List String} {p : ConflictPlace}
  {addressLE : String → String → Bool}

/-- In a list in strict order the two loops go through the pairs in that order. -/
theorem mem_hostPairs (h : hosts.Pairwise fun a b => a.id < b.id) :
    (hostA, hostB) ∈ hostPairs hosts ↔ hostA ∈ hosts ∧ hostB ∈ hosts ∧ hostA.id < hostB.id := by
  induction h with
  | nil => simp [hostPairs]
  | @cons first hosts hfirst _ ih =>
      rw [hostPairs, List.mem_append, ih, List.mem_cons, List.mem_cons]
      constructor
      · rintro (hmem | ⟨hA, hB, hlt⟩)
        · obtain ⟨b, hb, he⟩ := List.mem_map.mp hmem
          obtain ⟨rfl, rfl⟩ := Prod.mk.inj he
          exact ⟨.inl rfl, .inr hb, hfirst b hb⟩
        · exact ⟨.inr hA, .inr hB, hlt⟩
      · rintro ⟨rfl | hA, rfl | hB, hlt⟩
        · exact absurd hlt (lt_irrefl _)
        · exact .inl (List.mem_map.mpr ⟨hostB, hB, rfl⟩)
        · exact absurd (hlt.trans (hfirst hostA hA)) (lt_irrefl _)
        · exact .inr ⟨hA, hB, hlt⟩

/-- The map of `uniqueHosts` has each host under its id. -/
theorem uniqueHosts_entry {found : List RegisteredHost} {k : ℕ}
    (h : (k, host) ∈ uniqueHosts found) :
    k = host.id ∧ host ∈ found := by
  obtain ⟨x, hx, rfl, rfl⟩ := (InsertionMap.mem_foldl_set h).resolve_left List.not_mem_nil
  exact ⟨rfl, hx⟩

theorem nodup_uniqueHosts (found : List RegisteredHost) :
    ((uniqueHosts found).map Prod.fst).Nodup :=
  InsertionMap.nodup_foldl_set (fun _ host => host) List.nodup_nil

theorem mem_groupHosts (hids : (hosts.map RegisteredHost.id).Nodup) :
    host ∈ groupHosts hosts group ↔ host ∈ hosts ∧ ∃ row ∈ group, row.hostId = host.id := by
  rw [groupHosts, List.mem_insertionSort]
  constructor
  · intro hmem
    obtain ⟨⟨k, host⟩, hentry, rfl⟩ := List.mem_map.mp hmem
    obtain ⟨row, hrow, hlookup⟩ := List.mem_filterMap.mp (uniqueHosts_entry hentry).2
    obtain ⟨hhost, hid⟩ := Keyed.mem_of_lookup hlookup
    exact ⟨hhost, row, hrow, hid.symm⟩
  · rintro ⟨hhost, row, hrow, hid⟩
    generalize hdef : group.filterMap (fun row => Keyed.lookup RegisteredHost.id row.hostId hosts) =
      found
    have hfound : host ∈ found := by
      rw [← hdef]
      exact List.mem_filterMap.mpr ⟨row, hrow, hid ▸ Keyed.lookup_of_mem hids hhost⟩
    have hkey : (InsertionMap.get host.id (uniqueHosts found)).isSome :=
      InsertionMap.isSome_get_foldl_set.mpr (.inr ⟨host, hfound, rfl⟩)
    obtain ⟨other, hother⟩ := Option.isSome_iff_exists.mp hkey
    have hentry := (InsertionMap.mem_iff_get (nodup_uniqueHosts _)).mpr hother
    obtain ⟨he, hmem⟩ := uniqueHosts_entry hentry
    obtain ⟨row', -, hlookup⟩ := List.mem_filterMap.mp (hdef ▸ hmem)
    have hsame : host = other :=
      List.inj_on_of_nodup_map hids hhost (Keyed.mem_of_lookup hlookup).1 he
    exact List.mem_map.mpr ⟨_, hentry, hsame.symm⟩

theorem pairwise_groupHosts (hosts : List RegisteredHost) (group : List HostAddressAlias) :
    (groupHosts hosts group).Pairwise fun a b => a.id < b.id := by
  rw [groupHosts]
  generalize hm : uniqueHosts (group.filterMap fun row =>
    Keyed.lookup RegisteredHost.id row.hostId hosts) = m
  have hkeys : (m.map Prod.snd).map RegisteredHost.id = m.map Prod.fst := by
    rw [List.map_map]
    refine List.map_congr_left fun entry hentry => ?_
    exact (uniqueHosts_entry (hm ▸ hentry : (entry.1, entry.2) ∈ _)).1.symm
  have hnodup : ((m.map Prod.snd).map RegisteredHost.id).Nodup := by
    rw [hkeys, ← hm]
    exact nodup_uniqueHosts _
  have hle := List.pairwise_insertionSort (fun a b : RegisteredHost => a.id ≤ b.id) (m.map Prod.snd)
  have hne : ((m.map Prod.snd).insertionSort fun a b => a.id ≤ b.id).Pairwise
      fun a b => a.id ≠ b.id := by
    rw [← List.pairwise_map]
    exact ((List.perm_insertionSort _ _).map _).nodup_iff.mpr hnodup
  exact hle.imp₂ (fun _ _ h h' => lt_of_le_of_ne h h') hne

theorem mem_aliasesByAddress {address : String} :
    (address, group) ∈ aliasesByAddress addressLE addresses rows →
      address ∈ addresses ∧ ∀ row, row ∈ group ↔ row ∈ rows ∧ row.address = address := by
  intro h
  obtain ⟨⟨row, hrow, rfl⟩, rfl⟩ := InsertionMap.mem_groupBy.mp h
  rw [List.mem_insertionSort, List.mem_filter, decide_eq_true_eq] at hrow
  refine ⟨hrow.2, fun other => ?_⟩
  rw [List.mem_filter, List.mem_insertionSort, List.mem_filter, decide_eq_true_eq,
    decide_eq_true_eq]
  exact ⟨fun h => ⟨h.1.1, h.2⟩, fun h => ⟨⟨h.1, h.2 ▸ hrow.2⟩, h.2⟩⟩

variable (addressLE) in
theorem exists_aliasesByAddress {row : HostAddressAlias} (hrow : row ∈ rows)
    (h : row.address ∈ addresses) :
    ∃ group, (row.address, group) ∈ aliasesByAddress addressLE addresses rows := by
  refine ⟨_, InsertionMap.mem_groupBy.mpr ⟨⟨row, ?_, rfl⟩, rfl⟩⟩
  rw [List.mem_insertionSort, List.mem_filter, decide_eq_true_eq]
  exact ⟨hrow, h⟩

/-- The desired places are the collisions at the addresses that are looked at. -/
theorem mem_desiredPlaces (hids : (hosts.map RegisteredHost.id).Nodup)
    (hforeign : ∀ row ∈ rows, ∃ host ∈ hosts, host.id = row.hostId) :
    p ∈ (aliasesByAddress addressLE addresses rows).flatMap (groupPlaces hosts) ↔
      p.address ∈ addresses ∧ Collides rows p := by
  rw [List.mem_flatMap]
  constructor
  · rintro ⟨⟨address, group⟩, hgroup, hp⟩
    obtain ⟨haddress, hrows⟩ := mem_aliasesByAddress hgroup
    obtain ⟨⟨hostA, hostB⟩, hpair, rfl⟩ := List.mem_map.mp hp
    obtain ⟨hA, hB, hlt⟩ := (mem_hostPairs (pairwise_groupHosts hosts group)).mp hpair
    have halias : ∀ host ∈ groupHosts hosts group, HasAlias rows host.id address := by
      intro host hhost
      obtain ⟨-, row, hrow, hid⟩ := (mem_groupHosts hids).mp hhost
      obtain ⟨hmem, he⟩ := (hrows row).mp hrow
      exact ⟨row, hmem, Prod.ext hid he⟩
    exact ⟨haddress, hlt, halias hostA hA, halias hostB hB⟩
  · obtain ⟨idA, idB, address⟩ := p
    rintro ⟨haddress, hlt, ⟨rowA, hrowA, hplaceA⟩, ⟨rowB, hrowB, hplaceB⟩⟩
    obtain ⟨hidA, heA⟩ := Prod.mk.inj hplaceA
    obtain ⟨hidB, heB⟩ := Prod.mk.inj hplaceB
    obtain ⟨group, hgroup⟩ := exists_aliasesByAddress addressLE hrowA (heA ▸ haddress)
    have hmem := (mem_aliasesByAddress hgroup).2
    obtain ⟨hostA, hhostA, hA⟩ := hforeign rowA hrowA
    obtain ⟨hostB, hhostB, hB⟩ := hforeign rowB hrowB
    have hgroupA : hostA ∈ groupHosts hosts group :=
      (mem_groupHosts hids).mpr ⟨hhostA, rowA, (hmem rowA).mpr ⟨hrowA, rfl⟩, hA.symm⟩
    have hgroupB : hostB ∈ groupHosts hosts group :=
      (mem_groupHosts hids).mpr ⟨hhostB, rowB, (hmem rowB).mpr ⟨hrowB, heB.trans heA.symm⟩, hB.symm⟩
    refine ⟨_, hgroup, List.mem_map.mpr ⟨(hostA, hostB), ?_, ?_⟩⟩
    · refine (mem_hostPairs (pairwise_groupHosts hosts group)).mpr ⟨hgroupA, hgroupB, ?_⟩
      rw [hA, hB, hidA, hidB]
      exact hlt
    · rw [hA, hB, hidA, hidB, heA]

end Pairs

/-! ## Aliases of one host -/

/-- A change of one host's aliases, to addresses among the given ones. -/
structure AliasChange (hostId : ℕ) (addresses : List String)
    (rows rows' : List HostAddressAlias) : Prop where
  others : ∀ a, a.hostId ≠ hostId → (a ∈ rows' ↔ a ∈ rows)
  within : (∀ a ∈ rows, a.hostId = hostId → a.address ∈ addresses) →
    ∀ a ∈ rows', a.hostId = hostId → a.address ∈ addresses

section Aliases

variable {hostId : ℕ} {addresses : List String} {rows rows' rows'' : List HostAddressAlias}
  {data : HostAddressAliasInput} {w : HostRegistry}

theorem AliasChange.refl : AliasChange hostId addresses rows rows :=
  ⟨fun _ _ => .rfl, id⟩

theorem AliasChange.trans (h : AliasChange hostId addresses rows rows')
    (h' : AliasChange hostId addresses rows' rows'') : AliasChange hostId addresses rows rows'' :=
  ⟨fun a ha => (h'.others a ha).trans (h.others a ha), fun hrows => h'.within (h.within hrows)⟩

/-- Dropping rows of the host. -/
theorem aliasChange_filter {q : HostAddressAlias → Bool}
    (hq : ∀ a, a.hostId ≠ hostId → q a = true) :
    AliasChange hostId addresses rows (rows.filter q) where
  others a ha := by
    rw [List.mem_filter]
    exact and_iff_left (hq a ha)
  within h a ha := h a (List.mem_of_mem_filter ha)

theorem aliasChange_concat (hdata : data.address ∈ addresses) :
    AliasChange hostId addresses rows (rows ++ [data.row hostId]) where
  others a ha := by
    rw [List.mem_append, List.mem_singleton, or_iff_left]
    rintro rfl
    exact ha rfl
  within h a ha hid := by
    rcases List.mem_append.mp ha with ha | ha
    · exact h a ha hid
    · rw [List.mem_singleton.mp ha]
      exact hdata

theorem aliasChange_deleteOtherInputs (address : String) :
    AliasChange hostId addresses rows (deleteOtherInputs hostId address rows) := by
  refine aliasChange_filter fun a ha => ?_
  rw [beq_eq_false_iff_ne.mpr ha]
  rfl

theorem aliasChange_upsert (hdata : data.address ∈ addresses) :
    AliasChange hostId addresses rows (upsertHostInputAlias hostId data rows) := by
  unfold upsertHostInputAlias
  split
  · refine ⟨fun a ha => ?_, fun h a ha hid => ?_⟩
    · -- the rewritten rows are the host's
      rw [Keyed.mem_modify]
      constructor
      · rintro ⟨r, hr, he⟩
        split at he
        · rename_i hplace
          subst he
          exact absurd (congrArg Prod.fst hplace) ha
        · exact he ▸ hr
      · exact fun hr => ⟨a, hr, (if_neg fun hplace => ha (congrArg Prod.fst hplace)).symm⟩
    · obtain ⟨r, hr, rfl⟩ := Keyed.mem_modify.mp ha
      split
      · rename_i hplace
        rw [if_pos hplace] at hid
        exact h r hr hid
      · rename_i hplace
        rw [if_neg hplace] at hid
        exact h r hr hid
  · exact aliasChange_concat hdata

theorem aliasChange_create {aliases : List HostAddressAliasInput}
    (h : ∀ data ∈ aliases, data.address ∈ addresses) :
    AliasChange hostId addresses rows (createAliases hostId aliases rows) := by
  induction aliases generalizing rows with
  | nil => exact .refl
  | cons data aliases ih =>
      have hrest := fun d hd => h d (List.mem_cons_of_mem _ hd)
      rw [createAliases, List.foldl_cons]
      split
      · exact ih hrest
      · exact (aliasChange_concat (h data List.mem_cons_self)).trans (ih hrest)

theorem aliasChange_replace {aliases : List HostAddressAliasInput}
    (h : ∀ data ∈ aliases, data.address ∈ addresses) :
    AliasChange hostId addresses rows (replaceHostResolvedAliases hostId aliases rows) := by
  refine (aliasChange_filter fun a ha => ?_).trans (aliasChange_create h)
  rw [beq_eq_false_iff_ne.mpr ha]
  rfl

/-- Nothing changes at an address that is not among the given ones, where these have all that
the host had. -/
theorem AliasChange.collides (h : AliasChange hostId addresses rows rows')
    (hrows : ∀ a ∈ rows, a.hostId = hostId → a.address ∈ addresses) {p : ConflictPlace}
    (hp : p.address ∉ addresses) : Collides rows' p ↔ Collides rows p := by
  have halias : ∀ id, HasAlias rows' id p.address ↔ HasAlias rows id p.address := by
    intro id
    refine exists_congr fun a => and_congr_left fun hplace => ?_
    obtain ⟨hid, he⟩ := Prod.mk.inj hplace
    by_cases ha : a.hostId = hostId
    · exact ⟨fun hmem => absurd (he ▸ h.within hrows a hmem ha) hp,
        fun hmem => absurd (he ▸ hrows a hmem ha) hp⟩
    · exact h.others a ha
  rw [Collides, halias, halias, Collides]

theorem mem_addressesOf {a : HostAddressAlias} (ha : a ∈ w.aliases) (hid : a.hostId = hostId) :
    a.address ∈ w.addressesOf hostId :=
  List.mem_map_of_mem (List.mem_filter.mpr ⟨ha, beq_iff_eq.mpr hid⟩)

end Aliases

/-! ## Every run -/

/-- The indexes and foreign keys, and the rows that match the aliases. -/
structure RegistryInv (w : HostRegistry) : Prop where
  hostIds : (w.hosts.map RegisteredHost.id).Nodup
  foreign : ∀ row ∈ w.aliases, ∃ host ∈ w.hosts, host.id = row.hostId
  table : ConflictTable w.conflicts w.nextConflictId
  active : ∀ p, p ∈ activePlaces w.conflicts ↔ Collides w.aliases p

/-- The pairs that a call returns are those that it has made active. -/
def ReportsNew (w w' : HostRegistry) (created : List HostAddressConflictInfo) : Prop :=
  (created.map HostAddressConflictInfo.place).Nodup ∧
    ∀ p, p ∈ created.map HostAddressConflictInfo.place ↔
      p ∈ activePlaces w'.conflicts ∧ p ∉ activePlaces w.conflicts

section Runs

variable {addressLE : String → String → Bool}
  {extractInputAddress : String → Option NormalizedAddress} {w w' : HostRegistry}
  {event : RegistryEvent} {created : List HostAddressConflictInfo} {addresses : List String}
  {hostId : ℕ} {aliases : List HostAddressAlias} {logs : List HostAddressResolutionLog} {now : Time}

/-- The repair makes the rows of these addresses match, and leaves the others. -/
theorem syncHostAddressConflicts_active (hids : (w.hosts.map RegisteredHost.id).Nodup)
    (hforeign : ∀ row ∈ w.aliases, ∃ host ∈ w.hosts, host.id = row.hostId)
    (htable : ConflictTable w.conflicts w.nextConflictId)
    (h : syncHostAddressConflicts addressLE w addresses now = (w', created)) :
    w'.hosts = w.hosts ∧ w'.aliases = w.aliases ∧
      ConflictTable w'.conflicts w'.nextConflictId ∧
      (∀ p, p ∈ activePlaces w'.conflicts ↔
        if p.address ∈ addresses then Collides w.aliases p else p ∈ activePlaces w.conflicts) ∧
      (created.map HostAddressConflictInfo.place).Nodup ∧
      ∀ p, p ∈ created.map HostAddressConflictInfo.place ↔
        (p.address ∈ addresses ∧ Collides w.aliases p) ∧ p ∉ activePlaces w.conflicts := by
  unfold syncHostAddressConflicts at h
  split at h
  · rename_i hempty
    obtain ⟨rfl, rfl⟩ := Prod.mk.inj h
    obtain rfl := List.eq_nil_of_length_eq_zero hempty
    exact ⟨rfl, rfl, htable, fun p => by simp, List.nodup_nil, fun p => by simp⟩
  · obtain ⟨rfl, rfl⟩ := Prod.mk.inj h
    have hstart : Detected w.conflicts []
        { conflicts := w.conflicts, nextConflictId := w.nextConflictId } :=
      ⟨htable, fun p => by simp, List.nodup_nil, fun p => by simp, fun p => by simp⟩
    have hdetected := hstart.groups w.hosts
      (aliasesByAddress addressLE addresses.dedup w.aliases)
    rw [List.nil_append] at hdetected
    have hplaces : ∀ p, p ∈ (aliasesByAddress addressLE addresses.dedup w.aliases).flatMap
        (groupPlaces w.hosts) ↔ p.address ∈ addresses ∧ Collides w.aliases p := by
      intro p
      rw [mem_desiredPlaces hids hforeign, List.mem_dedup]
    obtain ⟨hresolved, hactive⟩ := resolveConflicts_spec
      ((aliasesByAddress addressLE addresses.dedup w.aliases).foldl
        (ConflictSync.detectGroup w.hosts)
        { conflicts := w.conflicts, nextConflictId := w.nextConflictId }).desiredKeys
      addresses.dedup now hdetected.table
    refine ⟨rfl, rfl, hresolved, fun p => ?_, hdetected.once, fun p => ?_⟩
    · refine (hactive p).trans ?_
      rw [hdetected.active, hdetected.desired, hplaces, List.mem_dedup]
      by_cases hp : p.address ∈ addresses
      · simp only [hp, true_and, if_true, forall_const]
        exact ⟨And.right, fun hc => ⟨.inr hc, hc⟩⟩
      · simp [hp]
    · rw [hdetected.created, hplaces]

/-- A change of one host's aliases and the repair of what it has touched. -/
theorem RegistryInv.repair (hw : RegistryInv w) (hhost : w.hosts.any (·.id == hostId) = true)
    (hchange : AliasChange hostId addresses w.aliases aliases)
    (htouched : ∀ a ∈ w.aliases, a.hostId = hostId → a.address ∈ addresses)
    (h : syncHostAddressConflicts addressLE { w with aliases, resolutionLogs := logs } addresses
      now = (w', created)) : RegistryInv w' ∧ ReportsNew w w' created := by
  obtain ⟨host, hmem, hid⟩ := List.any_eq_true.mp hhost
  have hforeign : ∀ row ∈ aliases, ∃ host ∈ w.hosts, host.id = row.hostId := by
    intro row hrow
    by_cases he : row.hostId = hostId
    · exact ⟨host, hmem, (beq_iff_eq.mp hid).trans he.symm⟩
    · exact hw.foreign row ((hchange.others row he).mp hrow)
  obtain ⟨hhosts, haliases, htable, hactive, honce, hcreated⟩ :=
    syncHostAddressConflicts_active (w := { w with aliases, resolutionLogs := logs }) hw.hostIds
      hforeign hw.table h
  have hmatch : ∀ p, p ∈ activePlaces w'.conflicts ↔ Collides aliases p := by
    intro p
    rw [hactive]
    split
    · exact .rfl
    · rename_i hp
      exact (hw.active p).trans (hchange.collides htouched hp).symm
  refine ⟨⟨hhosts ▸ hw.hostIds, ?_, htable, ?_⟩, honce, fun p => ?_⟩
  · rw [hhosts, haliases]
    exact hforeign
  · rw [haliases]
    exact hmatch
  · rw [hcreated, hmatch]
    constructor
    · exact fun ⟨⟨_, hp⟩, hold⟩ => ⟨hp, hold⟩
    · rintro ⟨hp, hold⟩
      -- a collision that was there before has its row
      refine ⟨⟨by_contra fun hout => hold ?_, hp⟩, hold⟩
      exact (hw.active p).mpr ((hchange.collides htouched hout).mp hp)

theorem RegistryInv.persist (hw : RegistryInv w) (hhost : w.hosts.any (·.id == hostId) = true)
    {snapshot : HostAddressSnapshot} {trigger : HostAddressCheckTrigger}
    (h : persistHostAddressSnapshot addressLE w hostId snapshot trigger now = (w', created)) :
    RegistryInv w' ∧ ReportsNew w w' created := by
  have hcovered : ∀ address, (address = snapshot.input.address ∨
      ∃ r ∈ snapshot.resolved, r.address = address) →
      address ∈ w.addressesOf hostId ++ snapshot.aliases.map (·.address) := by
    intro address haddress
    obtain ⟨a, ha, rfl⟩ := (snapshot.covers address).mpr haddress
    exact List.mem_append_right _ (List.mem_map_of_mem ha)
  refine hw.repair hhost ?_ (fun a ha hid => ?_) h
  · refine (aliasChange_deleteOtherInputs _).trans ((aliasChange_upsert ?_).trans
      (aliasChange_replace fun data hdata => ?_))
    · exact hcovered _ (.inl rfl)
    · obtain ⟨r, hr, rfl⟩ := List.mem_map.mp hdata
      exact hcovered _ (.inr ⟨r, hr, rfl⟩)
  · exact List.mem_append_left _ (mem_addressesOf ha hid)

theorem RegistryInv.recordFailure (hw : RegistryInv w)
    (hhost : w.hosts.any (·.id == hostId) = true) {url : String}
    {trigger : HostAddressCheckTrigger} {error : HostAddressRegistryError}
    (h : recordHostAddressResolutionFailure addressLE extractInputAddress w hostId url trigger error
      now = some (w', created)) : RegistryInv w' ∧ ReportsNew w w' created := by
  unfold recordHostAddressResolutionFailure at h
  split at h
  · cases h
  · rename_i input _
    refine hw.repair hhost ?_ (fun a ha hid => ?_) (Option.some.inj h)
    · refine (aliasChange_deleteOtherInputs _).trans (aliasChange_upsert ?_)
      exact List.mem_append_right _ List.mem_cons_self
    · exact List.mem_append_left _ (mem_addressesOf ha hid)

/-- The rows of a host go with it, and no others. -/
theorem RegistryInv.removeHost (hw : RegistryInv w) (hostId : ℕ) :
    RegistryInv { w with
      hosts := Keyed.erase RegisteredHost.id hostId w.hosts
      aliases := w.aliases.filter fun a => a.hostId ≠ hostId
      conflicts := w.conflicts.filter fun c => c.hostAId ≠ hostId ∧ c.hostBId ≠ hostId
      resolutionLogs := logs } where
  hostIds := Keyed.nodup_erase hw.hostIds
  foreign row hrow := by
    rw [List.mem_filter, decide_eq_true_eq] at hrow
    obtain ⟨host, hhost, hid⟩ := hw.foreign row hrow.1
    exact ⟨host, Keyed.mem_erase.mpr ⟨hhost, hid ▸ hrow.2⟩, hid⟩
  table := by
    refine ⟨hw.table.ids.sublist (List.filter_sublist.map _), fun c hc => ?_,
      hw.table.places.sublist (List.filter_sublist.map _)⟩
    exact hw.table.below c (List.mem_of_mem_filter hc)
  active p := by
    have halias : ∀ id, HasAlias (w.aliases.filter fun a => a.hostId ≠ hostId) id p.address ↔
        id ≠ hostId ∧ HasAlias w.aliases id p.address := by
      intro id
      constructor
      · rintro ⟨a, ha, hplace⟩
        rw [List.mem_filter, decide_eq_true_eq] at ha
        exact ⟨(Prod.mk.inj hplace).1 ▸ ha.2, a, ha.1, hplace⟩
      · rintro ⟨hne, a, ha, hplace⟩
        refine ⟨a, List.mem_filter.mpr ⟨ha, decide_eq_true ?_⟩, hplace⟩
        rw [(Prod.mk.inj hplace).1]
        exact hne
    have hrows : p ∈ activePlaces (w.conflicts.filter fun c =>
        c.hostAId ≠ hostId ∧ c.hostBId ≠ hostId) ↔
        (p.hostAId ≠ hostId ∧ p.hostBId ≠ hostId) ∧ p ∈ activePlaces w.conflicts := by
      rw [mem_activePlaces, mem_activePlaces]
      constructor
      · rintro ⟨c, hc, hstatus, rfl⟩
        rw [List.mem_filter, decide_eq_true_eq] at hc
        exact ⟨hc.2, c, hc.1, hstatus, rfl⟩
      · rintro ⟨hne, c, hc, hstatus, rfl⟩
        exact ⟨c, List.mem_filter.mpr ⟨hc, decide_eq_true hne⟩, hstatus, rfl⟩
    show p ∈ activePlaces (w.conflicts.filter _) ↔ _
    rw [hrows, hw.active, Collides, Collides, halias, halias]
    tauto

/-- One step keeps the invariant, and reports what it has made active. -/
theorem RegistryInv.call (hw : RegistryInv w)
    (h : registryCall addressLE extractInputAddress w event = some (w', created)) :
    RegistryInv w' ∧ ReportsNew w w' created := by
  have hnone : ∀ w' : HostRegistry, (∀ p, p ∈ activePlaces w'.conflicts →
      p ∈ activePlaces w.conflicts) → ReportsNew w w' [] := fun w' hsub =>
    ⟨List.nodup_nil, fun p => ⟨nofun, fun hp => absurd (hsub p hp.1) hp.2⟩⟩
  cases event with
  | persistHostAddressSnapshot hostId snapshot trigger now =>
      simp only [registryCall, Option.ite_none_right_eq_some, Option.some.injEq] at h
      exact hw.persist h.1 h.2
  | recordHostAddressResolutionFailure hostId url trigger error now =>
      simp only [registryCall, Option.ite_none_right_eq_some] at h
      exact hw.recordFailure h.1 h.2
  | addHost host =>
      simp only [registryCall, Option.ite_none_left_eq_some, Option.some.injEq] at h
      obtain ⟨hfresh, he⟩ := h
      obtain ⟨rfl, rfl⟩ := Prod.mk.inj he
      refine ⟨⟨Keyed.nodup_append_singleton hw.hostIds fun other hother he => hfresh ?_, ?_,
        hw.table, hw.active⟩, hnone _ fun _ => id⟩
      · exact List.any_eq_true.mpr ⟨other, hother, beq_iff_eq.mpr he⟩
      · intro row hrow
        obtain ⟨other, hother, hid⟩ := hw.foreign row hrow
        exact ⟨other, List.mem_append_left _ hother, hid⟩
  | removeHost hostId =>
      simp only [registryCall, Option.some.injEq] at h
      obtain ⟨rfl, rfl⟩ := Prod.mk.inj h
      refine ⟨hw.removeHost hostId, hnone _ fun p hp => ?_⟩
      obtain ⟨c, hc, hstatus, he⟩ := mem_activePlaces.mp hp
      exact mem_activePlaces.mpr ⟨c, List.mem_of_mem_filter hc, hstatus, he⟩

theorem registryInv_empty : RegistryInv {} where
  hostIds := List.nodup_nil
  foreign := nofun
  table := ⟨List.nodup_nil, nofun, List.nodup_nil⟩
  active p := by simp [activePlaces, Collides, HasAlias]

/-- In every state of the registry the active conflicts of an address are the pairs of hosts that
share it, each once; and a call returns the pairs that were not active before it. -/
theorem conflicts_match
    (h : Machine.Reach (registryStep addressLE extractInputAddress) Machine.free {} w) :
    (activePlaces w.conflicts).Nodup ∧
      (∀ p, p ∈ activePlaces w.conflicts ↔ Collides w.aliases p) ∧
      ∀ event w' created, registryCall addressLE extractInputAddress w event = some (w', created) →
        ReportsNew w w' created := by
  have hinv : RegistryInv w := h.invariant registryInv_empty fun ht _ hs => by
    obtain ⟨⟨u, created⟩, hcall, rfl⟩ := Option.map_eq_some_iff.mp hs
    exact (ht.call hcall).1
  exact ⟨hinv.table.nodup_active, hinv.active, fun event w' created hc => (hinv.call hc).2⟩

end Runs

/-! ### A domain that resolves to another host's address -/

def sharedAddress : NormalizedAddress := ⟨"198.51.100.7", .ipv4⟩

def sharedUrl : String := "https://198.51.100.7:8443"

def extractShared (url : String) : Option NormalizedAddress :=
  if url = sharedUrl then some sharedAddress else none

/-- One host resolves to the address, the other names it while its resolution fails. -/
def sharedRun : List RegistryEvent :=
  [.addHost ⟨1, "tokyo"⟩, .addHost ⟨2, "osaka"⟩,
   .persistHostAddressSnapshot 1 (buildSnapshot ⟨"tokyo.example", .domain⟩ [sharedAddress])
     .create 0,
   .recordHostAddressResolutionFailure 2 sharedUrl .poll
     ⟨"HOST_ADDRESS_UNRESOLVABLE", some "ENOTFOUND", "ENOTFOUND"⟩ 1800]

def sharedRegistry : HostRegistry where
  hosts := [⟨1, "tokyo"⟩, ⟨2, "osaka"⟩]
  aliases := [⟨⟨"tokyo.example", .domain, .input⟩, 1⟩, ⟨⟨"198.51.100.7", .ipv4, .resolved⟩, 1⟩,
    ⟨⟨"198.51.100.7", .ipv4, .input⟩, 2⟩]
  conflicts := [⟨1, 1, 2, "198.51.100.7", .active, none⟩]
  nextConflictId := 2
  resolutionLogs :=
    [⟨1, "tokyo.example", .domain, .create, ["198.51.100.7"], none,
      ["tokyo.example", "198.51.100.7"]⟩,
     ⟨2, "198.51.100.7", .ipv4, .poll, [], some "ENOTFOUND", ["HOST_ADDRESS_UNRESOLVABLE"]⟩]

theorem conflicts_match_shared :
    activePlaces sharedRegistry.conflicts = [⟨1, 2, "198.51.100.7"⟩] ∧
      (activePlaces sharedRegistry.conflicts).Nodup ∧
      (∀ p, p ∈ activePlaces sharedRegistry.conflicts ↔ Collides sharedRegistry.aliases p) ∧
      ∀ event w' created,
        registryCall (fun a b => a ≤ b) extractShared sharedRegistry event = some (w', created) →
          ReportsNew sharedRegistry w' created := by
  have hrun : Machine.exec (registryStep (fun a b => a ≤ b) extractShared) {} sharedRun =
      some sharedRegistry := by decide +kernel
  exact ⟨by decide, conflicts_match (Machine.reach_of_exec hrun)⟩

end Incudal
