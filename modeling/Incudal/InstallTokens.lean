/-
# `InstallTokens` — credentials of an agent for a token that works once

A rotation replaces the credentials of a host's agent and clears its install
token; an issue is a rotation and then, in a statement of its own, the hash of
a new token on the same row.  A consumption finds the row by the hash, and then
clears the token by a conditional update; what it hands out is the row it found.

There is no transaction around any of this.  What makes the credentials those
of the row at the moment of the update is that a rotation clears the token, and
that no token is ever stored a second time: if the token is still on the row,
there has been no rotation since it was found (`tokens_safe`).
-/
import Incudal.Basic
import Incudal.Lib.Keyed
import Incudal.Lib.Machine
import Mathlib.Logic.Function.Basic

namespace Incudal

/-! ## Rows -/

/-- The columns of `host_agents`, those of pending upgrades left out. -/
structure HostAgentRecord where
  id : ℕ
  hostId : ℕ
  agentId : String
  secretHash : String
  secretEncrypted : String
  installTokenHash : Option String := none
  installTokenExpiresAt : Option Time := none
  installTokenUsedAt : Option Time := none
  enabled : Bool
  status : String := "offline"
  version : Option String := none
  capabilities : List String := []
  lastReport : List (String × String) := []
  lastSeenAt : Option Time := none
  lastHeartbeatIp : Option String := none
deriving DecidableEq, Repr

/-- The condition of the update that consumes a token. -/
def HostAgentRecord.consumable (agent : HostAgentRecord) (tokenHash : String)
    (now : Time) : Bool :=
  agent.installTokenHash == some tokenHash && agent.installTokenUsedAt == none
    && agent.installTokenExpiresAt.any fun expiresAt => now ≤ expiresAt

/-- Hashes and the cipher of the panel. -/
structure CredentialTools where
  hashAgentSecret : String → String
  encryptSensitiveData : String → String
  decryptSensitiveData : String → Option String
  hashAgentInstallToken : String → String

/-- `agentInstallTokenPrefix`. -/
def agentInstallTokenPrefix : String := "ait_"

/-- `agentInstallTokenTtlMs`. -/
def agentInstallTokenTtlMs : Time := 30 * 60 * 1000

/-- `length` of a string: a character beyond the first plane counts twice. -/
def jsLength (s : String) : ℕ := (s.toList.map fun c => if c.toNat < 0x10000 then 1 else 2).sum

def isAgentInstallToken (value : String) : Bool :=
  agentInstallTokenPrefix.toList.isPrefixOf value.toList
    && jsLength agentInstallTokenPrefix + 32 ≤ jsLength value

/-! ## Calls and what they have done -/

/-- Where a call is.  `rotating` is a rotation before its upsert, for itself or for an issue;
`rotated` an issue before it stores its token; `looking` and `found` are a consumption. -/
inductive CredentialStage
  | rotating (hostId : ℕ) (enabled issues : Bool)
  | rotated (id : ℕ)
  | looking (token : String)
  | found (tokenHash : String) (agent : HostAgentRecord)
  | done
deriving DecidableEq, Repr

/-- A token that an issue has stored; `rotation` counts the rotations of the host up to then. -/
structure IssuedToken where
  tokenHash : String
  hostId : ℕ
  expiresAt : Time
  rotation : ℕ
deriving DecidableEq, Repr

/-- Credentials that a consumption has handed out, and the row at that moment. -/
structure YieldedCredentials where
  tokenHash : String
  agent : HostAgentRecord
  agentSecret : String
  row : HostAgentRecord
  time : Time
  rotation : ℕ
deriving DecidableEq, Repr

structure CredentialWorld where
  clock : Time := 0
  hosts : List ℕ := []
  agents : List HostAgentRecord := []
  nextId : ℕ := 1
  calls : List CredentialStage := []
  /-- the tokens that have been stored, what they have yielded, the rotations of each host -/
  issued : List IssuedToken := []
  yielded : List YieldedCredentials := []
  rotations : ℕ → ℕ := fun _ => 0

inductive CredentialEvent
  | rotateHostAgentCredentials (hostId : ℕ) (enabled : Bool)
  | issueHostAgentInstallToken (hostId : ℕ) (enabled : Bool)
  | consumeHostAgentInstallToken (token : String)
  | upsert (k : ℕ) (agentId agentSecret : String)
  | storeToken (k : ℕ) (installToken : String)
  | find (k : ℕ)
  | use (k : ℕ)
  /-- a call ends with an error -/
  | fail (k : ℕ)
  | heartbeat (agentId status : String) (version lastHeartbeatIp : Option String)
      (capabilities : List String) (lastReport : List (String × String))
  | removeHost (hostId : ℕ)
  | addHost (hostId : ℕ)
  | tick (now : Time)
deriving DecidableEq, Repr

namespace CredentialWorld

variable (tools : CredentialTools) (w : CredentialWorld)

def call (stage : CredentialStage) : CredentialWorld := { w with calls := w.calls ++ [stage] }

def goto (k : ℕ) (stage : CredentialStage) : CredentialWorld :=
  { w with calls := w.calls.set k stage }

/-- The row of a host's agent with new credentials and no token. -/
def rotatedRow (id hostId : ℕ) (agentId agentSecret : String) (enabled : Bool) : HostAgentRecord where
  id := id
  hostId := hostId
  agentId := agentId
  secretHash := tools.hashAgentSecret agentSecret
  secretEncrypted := tools.encryptSensitiveData agentSecret
  enabled := enabled

/-- The upsert of a rotation; an issue goes on from it. -/
def upsert (k hostId : ℕ) (agentId agentSecret : String) (enabled issues : Bool) : CredentialWorld :=
  let next (id : ℕ) := if issues then CredentialStage.rotated id else .done
  let rotations := Function.update w.rotations hostId (w.rotations hostId + 1)
  match w.agents.find? (·.hostId == hostId) with
  | some agent =>
      { w with
          agents := Keyed.modify HostAgentRecord.id agent.id
            (fun _ => rotatedRow tools agent.id hostId agentId agentSecret enabled) w.agents
          calls := w.calls.set k (next agent.id)
          rotations }
  | none =>
      { w with
          agents := w.agents ++ [rotatedRow tools w.nextId hostId agentId agentSecret enabled]
          nextId := w.nextId + 1
          calls := w.calls.set k (next w.nextId)
          rotations }

/-- The second statement of an issue; the row may be gone. -/
def storeToken (k id : ℕ) (installToken : String) : CredentialWorld :=
  let tokenHash := tools.hashAgentInstallToken installToken
  let expiresAt := w.clock + agentInstallTokenTtlMs
  match Keyed.lookup HostAgentRecord.id id w.agents with
  | none => w.goto k .done
  | some agent =>
      { w with
          agents := Keyed.modify HostAgentRecord.id id
            (fun agent =>
              { agent with
                  installTokenHash := some tokenHash
                  installTokenExpiresAt := some expiresAt
                  installTokenUsedAt := none })
            w.agents
          calls := w.calls.set k .done
          issued := w.issued ++ [{ tokenHash, hostId := agent.hostId, expiresAt
                                   rotation := w.rotations agent.hostId }] }

/-- The first half of a consumption, up to its checks. -/
def find (k : ℕ) (token : String) : CredentialWorld :=
  let tokenHash := tools.hashAgentInstallToken token
  if !isAgentInstallToken token then w.goto k .done
  else
    match w.agents.find? (·.installTokenHash == some tokenHash) with
    | none => w.goto k .done
    | some agent =>
        match agent.installTokenExpiresAt, agent.installTokenUsedAt with
        | some expiresAt, none =>
            if expiresAt < w.clock then w.goto k .done else w.goto k (.found tokenHash agent)
        | _, _ => w.goto k .done

/-- The conditional update of a consumption, and what it hands out. -/
def use (k : ℕ) (tokenHash : String) (agent : HostAgentRecord) : CredentialWorld :=
  match Keyed.lookup HostAgentRecord.id agent.id w.agents with
  | none => w.goto k .done
  | some row =>
      if row.consumable tokenHash w.clock then
        let w' := { w with
          agents := Keyed.modify HostAgentRecord.id agent.id
            (fun row =>
              { row with
                  installTokenHash := none
                  installTokenExpiresAt := none
                  installTokenUsedAt := some w.clock })
            w.agents
          calls := w.calls.set k .done }
        match tools.decryptSensitiveData agent.secretEncrypted with
        | none => w'
        | some agentSecret =>
            { w' with
                yielded := w.yielded ++ [{ tokenHash, agent, agentSecret, row, time := w.clock
                                           rotation := w.rotations row.hostId }] }
      else w.goto k .done

end CredentialWorld

/-- One statement of one call, or something else that happens to the tables. -/
def credentialStep (tools : CredentialTools) (w : CredentialWorld) :
    CredentialEvent → Option CredentialWorld
  | .rotateHostAgentCredentials hostId enabled => some (w.call (.rotating hostId enabled false))
  | .issueHostAgentInstallToken hostId enabled => some (w.call (.rotating hostId enabled true))
  | .consumeHostAgentInstallToken token => some (w.call (.looking token))
  | .upsert k agentId agentSecret =>
      match w.calls[k]? with
      | some (.rotating hostId enabled issues) =>
          -- without the host, or with an agent id that is taken, the call fails
          if hostId ∉ w.hosts ∨ w.agents.any (·.agentId == agentId) then some (w.goto k .done)
          else some (w.upsert tools k hostId agentId agentSecret enabled issues)
      | _ => none
  | .storeToken k installToken =>
      match w.calls[k]? with
      | some (.rotated id) => some (w.storeToken tools k id installToken)
      | _ => none
  | .find k =>
      match w.calls[k]? with
      | some (.looking token) => some (w.find tools k token)
      | _ => none
  | .use k =>
      match w.calls[k]? with
      | some (.found tokenHash agent) => some (w.use tools k tokenHash agent)
      | _ => none
  | .fail k => some (w.goto k .done)
  | .heartbeat agentId status version lastHeartbeatIp capabilities lastReport =>
      let report (agent : HostAgentRecord) : HostAgentRecord :=
        { agent with
            status, version, capabilities, lastReport, lastHeartbeatIp
            lastSeenAt := some w.clock }
      some { w with agents := Keyed.modify HostAgentRecord.agentId agentId report w.agents }
  | .removeHost hostId =>
      some { w with
        hosts := w.hosts.filter (· ≠ hostId)
        agents := w.agents.filter fun agent => agent.hostId ≠ hostId }
  | .addHost hostId => some { w with hosts := hostId :: w.hosts }
  | .tick now => if w.clock ≤ now then some { w with clock := now } else none

/-! ## What is promised -/

/-- Each token yields at most once, not after its expiry and not after a rotation that came after
its issue; and it yields the credentials that are on the row at that moment. -/
structure TokensSafe (tools : CredentialTools) (w : CredentialWorld) : Prop where
  once : (w.yielded.map (·.tokenHash)).Nodup
  lawful : ∀ y ∈ w.yielded, ∃ t ∈ w.issued, t.tokenHash = y.tokenHash ∧ t.hostId = y.row.hostId ∧
    y.time ≤ t.expiresAt ∧ y.rotation = t.rotation
  current : ∀ y ∈ w.yielded, y.agent.agentId = y.row.agentId ∧
    y.agent.secretEncrypted = y.row.secretEncrypted ∧
    tools.decryptSensitiveData y.row.secretEncrypted = some y.agentSecret

/-- The token that an issue stores has not been stored before. -/
def FreshToken (tools : CredentialTools) (w : CredentialWorld) : CredentialEvent → Prop
  | .storeToken _ installToken =>
      tools.hashAgentInstallToken installToken ∉ w.issued.map (·.tokenHash)
  | _ => True

/-! ## The invariant -/

/-- A token on a row has been issued for the row's host, since the last rotation, and has not
yielded; one that a consumption has found was issued, and if it is still on the row, the row's
credentials are those that were found. -/
structure CredentialInv (tools : CredentialTools) (w : CredentialWorld) : Prop where
  ids : (w.agents.map HostAgentRecord.id).Nodup
  below : ∀ a ∈ w.agents, a.id < w.nextId
  hosts : (w.agents.map HostAgentRecord.hostId).Nodup
  rows : ∀ a ∈ w.agents, ∀ th, a.installTokenHash = some th →
    th ∉ w.yielded.map (·.tokenHash) ∧
      ∃ t ∈ w.issued, t.tokenHash = th ∧ t.hostId = a.hostId ∧
        a.installTokenExpiresAt = some t.expiresAt ∧ t.rotation = w.rotations a.hostId
  unique : ∀ a ∈ w.agents, ∀ b ∈ w.agents, ∀ th, a.installTokenHash = some th →
    b.installTokenHash = some th → a.id = b.id
  found : ∀ th a, .found th a ∈ w.calls → th ∈ w.issued.map (·.tokenHash) ∧
    ∀ b ∈ w.agents, b.id = a.id → b.installTokenHash = some th →
      b.agentId = a.agentId ∧ b.secretEncrypted = a.secretEncrypted
  safe : TokensSafe tools w

/-- A row with its token and credentials. -/
structure KeptRow (a a' : HostAgentRecord) : Prop where
  id : a'.id = a.id
  hostId : a'.hostId = a.hostId
  agentId : a'.agentId = a.agentId
  secretEncrypted : a'.secretEncrypted = a.secretEncrypted
  installTokenHash : a'.installTokenHash = a.installTokenHash
  installTokenExpiresAt : a'.installTokenExpiresAt = a.installTokenExpiresAt

theorem KeptRow.refl (a : HostAgentRecord) : KeptRow a a := ⟨rfl, rfl, rfl, rfl, rfl, rfl⟩

section Invariant

variable {tools : CredentialTools} {w w' : CredentialWorld} {event : CredentialEvent}
  {a a' agent : HostAgentRecord} {th : String} {k : ℕ}

/-- No token comes onto a row, and no consumption finds one. -/
theorem CredentialInv.of_rows (h : CredentialInv tools w)
    (hids : (w'.agents.map HostAgentRecord.id).Nodup) (hbelow : ∀ a ∈ w'.agents, a.id < w'.nextId)
    (hhosts : (w'.agents.map HostAgentRecord.hostId).Nodup) (hissued : w'.issued = w.issued)
    (hcalls : ∀ th a, .found th a ∈ w'.calls → .found th a ∈ w.calls)
    (hrows : ∀ a' ∈ w'.agents, ∀ th, a'.installTokenHash = some th → ∃ a ∈ w.agents, KeptRow a a' ∧
      w'.rotations a.hostId = w.rotations a.hostId ∧ th ∉ w'.yielded.map (·.tokenHash))
    (hsafe : TokensSafe tools w') : CredentialInv tools w' where
  ids := hids
  below := hbelow
  hosts := hhosts
  rows := by
    intro a' ha' th hth
    obtain ⟨a, ha, hkept, hrotation, hyielded⟩ := hrows a' ha' th hth
    obtain ⟨-, t, ht, htoken, hhost, hexpires, hcount⟩ :=
      h.rows a ha th (hkept.installTokenHash.symm.trans hth)
    exact ⟨hyielded, t, hissued ▸ ht, htoken, hhost.trans hkept.hostId.symm,
      hkept.installTokenExpiresAt.trans hexpires, by rw [hkept.hostId, hrotation, hcount]⟩
  unique := by
    intro a' ha' b' hb' th hath hbth
    obtain ⟨a, ha, hkept, -⟩ := hrows a' ha' th hath
    obtain ⟨b, hb, hkept', -⟩ := hrows b' hb' th hbth
    rw [hkept.id, hkept'.id]
    exact h.unique a ha b hb th (hkept.installTokenHash.symm.trans hath)
      (hkept'.installTokenHash.symm.trans hbth)
  found := by
    intro th agent hcall
    obtain ⟨hissued', hcreds⟩ := h.found th agent (hcalls th agent hcall)
    refine ⟨hissued ▸ hissued', fun b' hb' hid hth => ?_⟩
    obtain ⟨b, hb, hkept, -⟩ := hrows b' hb' th hth
    rw [hkept.agentId, hkept.secretEncrypted]
    exact hcreds b hb (hkept.id.symm.trans hid) (hkept.installTokenHash.symm.trans hth)
  safe := hsafe

/-- What is yielded and issued decides whether the promise is kept. -/
theorem TokensSafe.of_eq (h : TokensSafe tools w) (hyielded : w'.yielded = w.yielded)
    (hissued : w'.issued = w.issued) : TokensSafe tools w' where
  once := hyielded ▸ h.once
  lawful := hyielded ▸ hissued ▸ h.lawful
  current := hyielded ▸ h.current

/-- Only a call moves, and not to a token that it has found. -/
theorem CredentialInv.of_calls {calls : List CredentialStage} (h : CredentialInv tools w)
    (hcalls : ∀ th a, .found th a ∈ calls → .found th a ∈ w.calls) :
    CredentialInv tools { w with calls } :=
  h.of_rows h.ids h.below h.hosts rfl hcalls
    (fun a ha th hth => ⟨a, ha, .refl a, rfl, (h.rows a ha th hth).1⟩) (h.safe.of_eq rfl rfl)

theorem found_of_mem_set {calls : List CredentialStage} {stage : CredentialStage}
    (hstage : ∀ th a, stage ≠ .found th a) (h : .found th a ∈ calls.set k stage) :
    .found th a ∈ calls :=
  (List.mem_or_eq_of_mem_set h).resolve_right fun heq => hstage th a heq.symm

theorem CredentialInv.goto {stage : CredentialStage} (h : CredentialInv tools w)
    (hstage : ∀ th a, stage ≠ .found th a) : CredentialInv tools (w.goto k stage) :=
  h.of_calls fun _ _ => found_of_mem_set hstage

theorem CredentialInv.call {stage : CredentialStage} (h : CredentialInv tools w)
    (hstage : ∀ th a, stage ≠ .found th a) : CredentialInv tools (w.call stage) :=
  h.of_calls fun th a hmem => (List.mem_append.mp hmem).resolve_right fun hlast =>
    hstage th a (List.mem_singleton.mp hlast).symm

/-- A rotation: the row of the host has no token, and no other row is of the host. -/
theorem CredentialInv.upsert {hostId : ℕ} {agentId agentSecret : String} {enabled issues : Bool}
    (h : CredentialInv tools w) :
    CredentialInv tools (w.upsert tools k hostId agentId agentSecret enabled issues) := by
  have hcalls : ∀ id th a, CredentialStage.found th a ∈
      w.calls.set k (if issues then .rotated id else .done) → .found th a ∈ w.calls := by
    intro id th a
    refine found_of_mem_set fun th a => ?_
    cases issues <;> exact CredentialStage.noConfusion
  cases hfind : w.agents.find? (·.hostId == hostId) with
  | some agent =>
      simp only [CredentialWorld.upsert, hfind]
      have hmem := List.mem_of_find?_eq_some hfind
      have hhost : agent.hostId = hostId := by simpa using List.find?_some hfind
      have hsame : ∀ a ∈ w.agents, a.id = agent.id → a.hostId = hostId := fun a ha hid =>
        (congrArg HostAgentRecord.hostId (List.inj_on_of_nodup_map h.ids ha hmem hid)).trans hhost
      refine h.of_rows ?_ ?_ ?_ rfl (hcalls _) ?_ (h.safe.of_eq rfl rfl)
      · dsimp only
        rw [Keyed.map_key_modify_of]
        · exact h.ids
        · exact fun _ _ => rfl
      · intro a' ha'
        obtain ⟨a, ha, rfl⟩ := Keyed.mem_modify.mp ha'
        split
        · exact h.below agent hmem
        · exact h.below a ha
      · dsimp only
        rw [Keyed.map_modify_of_mem]
        · exact h.hosts
        · exact fun a ha hid => (hsame a ha hid).symm
      · intro a' ha' th hth
        obtain ⟨a, ha, rfl⟩ := Keyed.mem_modify.mp ha'
        split at hth
        · cases hth
        · rename_i hne
          rw [if_neg hne]
          refine ⟨a, ha, .refl a, Function.update_of_ne (fun heq => hne ?_) _ _,
            (h.rows a ha th hth).1⟩
          exact congrArg HostAgentRecord.id
            (List.inj_on_of_nodup_map h.hosts ha hmem (heq.trans hhost.symm))
  | none =>
      simp only [CredentialWorld.upsert, hfind]
      have hfresh : ∀ a ∈ w.agents, a.hostId ≠ hostId := by simpa using hfind
      refine h.of_rows ?_ ?_ ?_ rfl (hcalls _) ?_ (h.safe.of_eq rfl rfl)
      · exact Keyed.nodup_append_singleton h.ids fun a ha => (h.below a ha).ne
      · exact Keyed.below_concat h.below (Nat.le_succ _) (Nat.lt_succ_self _)
      · exact Keyed.nodup_append_singleton h.hosts hfresh
      · intro a' ha' th hth
        rcases List.mem_append.mp ha' with ha | hnew
        · exact ⟨a', ha, .refl a', Function.update_of_ne (hfresh a' ha) _ _, (h.rows a' ha th hth).1⟩
        · rw [List.mem_singleton.mp hnew] at hth
          cases hth

/-- An issue stores a token that is nowhere yet. -/
theorem CredentialInv.storeToken {id : ℕ} {installToken : String} (h : CredentialInv tools w)
    (hfresh : tools.hashAgentInstallToken installToken ∉ w.issued.map (·.tokenHash)) :
    CredentialInv tools (w.storeToken tools k id installToken) := by
  cases hlookup : Keyed.lookup HostAgentRecord.id id w.agents with
  | none =>
      simp only [CredentialWorld.storeToken, hlookup]
      exact h.goto fun _ _ => CredentialStage.noConfusion
  | some agent =>
      simp only [CredentialWorld.storeToken, hlookup]
      obtain ⟨hmem, rfl⟩ := Keyed.mem_of_lookup hlookup
      have hsame : ∀ a ∈ w.agents, a.id = agent.id → a = agent := fun a ha hid =>
        List.inj_on_of_nodup_map h.ids ha hmem hid
      have hstored : ∀ a ∈ w.agents, a.installTokenHash ≠
          some (tools.hashAgentInstallToken installToken) := by
        intro a ha hth
        obtain ⟨-, t, ht, htoken, -⟩ := h.rows a ha _ hth
        exact hfresh (htoken ▸ List.mem_map_of_mem ht)
      constructor
      case ids =>
        dsimp only
        rw [Keyed.map_key_modify_of]
        · exact h.ids
        · exact fun _ hid => hid
      case below =>
        intro a' ha'
        obtain ⟨a, ha, rfl⟩ := Keyed.mem_modify.mp ha'
        split <;> exact h.below a ha
      case hosts =>
        dsimp only
        rw [Keyed.map_modify_same]
        · exact h.hosts
        · exact fun _ => rfl
      case rows =>
        intro a' ha' th hth
        obtain ⟨a, ha, rfl⟩ := Keyed.mem_modify.mp ha'
        split at hth
        · rename_i hid
          obtain rfl := hsame a ha hid
          obtain rfl := Option.some.inj hth
          rw [if_pos rfl]
          refine ⟨fun hyielded => hfresh ?_, _, List.mem_append_right _ (List.mem_singleton_self _),
            rfl, rfl, rfl, rfl⟩
          obtain ⟨y, hy, htoken⟩ := List.mem_map.mp hyielded
          obtain ⟨t, ht, htoken', -⟩ := h.safe.lawful y hy
          exact htoken ▸ htoken' ▸ List.mem_map_of_mem ht
        · rename_i hid
          rw [if_neg hid]
          obtain ⟨hyielded, t, ht, hfacts⟩ := h.rows a ha th hth
          exact ⟨hyielded, t, List.mem_append_left _ ht, hfacts⟩
      case unique =>
        intro a' ha' b' hb' th hath hbth
        obtain ⟨a, ha, rfl⟩ := Keyed.mem_modify.mp ha'
        obtain ⟨b, hb, rfl⟩ := Keyed.mem_modify.mp hb'
        split at hath <;> split at hbth
        · rename_i hid hid'
          simp [hid, hid']
        · obtain rfl := Option.some.inj hath
          exact absurd hbth (hstored b hb)
        · obtain rfl := Option.some.inj hbth
          exact absurd hath (hstored a ha)
        · rename_i hid hid'
          rw [if_neg hid, if_neg hid']
          exact h.unique a ha b hb th hath hbth
      case found =>
        intro th a hcall
        obtain ⟨hissued, hcreds⟩ :=
          h.found th a (found_of_mem_set (fun _ _ => CredentialStage.noConfusion) hcall)
        refine ⟨?_, fun b' hb' hid hth => ?_⟩
        · rw [List.map_append]
          exact List.mem_append_left _ hissued
        · obtain ⟨b, hb, rfl⟩ := Keyed.mem_modify.mp hb'
          split at hth
          · obtain rfl := Option.some.inj hth
            exact absurd hissued hfresh
          · rename_i hne
            rw [if_neg hne] at hid ⊢
            exact hcreds b hb hid hth
      case safe =>
        refine ⟨h.safe.once, fun y hy => ?_, h.safe.current⟩
        obtain ⟨t, ht, hfacts⟩ := h.safe.lawful y hy
        exact ⟨t, List.mem_append_left _ ht, hfacts⟩

/-- A consumption finds a token that has been issued, and the credentials beside it. -/
theorem CredentialInv.find {token : String} (h : CredentialInv tools w) :
    CredentialInv tools (w.find tools k token) := by
  have hdone : CredentialInv tools (w.goto k .done) :=
    h.goto fun _ _ => CredentialStage.noConfusion
  simp only [CredentialWorld.find]
  split
  · exact hdone
  · cases hfind : w.agents.find? (·.installTokenHash == some (tools.hashAgentInstallToken token)) with
    | none => exact hdone
    | some agent =>
        have hmem := List.mem_of_find?_eq_some hfind
        have htoken : agent.installTokenHash = some (tools.hashAgentInstallToken token) := by
          simpa using List.find?_some hfind
        have hfound : CredentialInv tools
            (w.goto k (.found (tools.hashAgentInstallToken token) agent)) :=
          { ids := h.ids
            below := h.below
            hosts := h.hosts
            rows := h.rows
            unique := h.unique
            safe := h.safe.of_eq rfl rfl
            found := by
              intro th a hcall
              rcases List.mem_or_eq_of_mem_set hcall with hcall | heq
              · exact h.found th a hcall
              · obtain ⟨rfl, rfl⟩ := CredentialStage.found.inj heq
                obtain ⟨-, t, ht, hth, -⟩ := h.rows a hmem _ htoken
                refine ⟨hth ▸ List.mem_map_of_mem ht, fun b hb hid _ => ?_⟩
                obtain rfl := List.inj_on_of_nodup_map h.ids hb hmem hid
                exact ⟨rfl, rfl⟩ }
        dsimp only
        split
        · split
          · exact hdone
          · exact hfound
        · exact hdone

/-- The token of a row goes, and yields the credentials that are on the row. -/
theorem CredentialInv.use (h : CredentialInv tools w) (hcall : w.calls[k]? = some (.found th agent)) :
    CredentialInv tools (w.use tools k th agent) := by
  have hdone : CredentialInv tools (w.goto k .done) :=
    h.goto fun _ _ => CredentialStage.noConfusion
  obtain ⟨-, hcreds⟩ := h.found th agent (List.mem_of_getElem? hcall)
  cases hlookup : Keyed.lookup HostAgentRecord.id agent.id w.agents with
  | none =>
      simp only [CredentialWorld.use, hlookup]
      exact hdone
  | some row =>
      obtain ⟨hmem, hid⟩ := Keyed.mem_of_lookup hlookup
      simp only [CredentialWorld.use, hlookup]
      split
      · rename_i hconsumable
        simp only [HostAgentRecord.consumable, Bool.and_eq_true, beq_iff_eq, Option.any_eq_true,
          decide_eq_true_eq] at hconsumable
        obtain ⟨⟨htoken, -⟩, expiresAt, hexpires, hnow⟩ := hconsumable
        obtain ⟨hagentId, hsecret⟩ := hcreds row hmem hid htoken
        obtain ⟨hyielded, t, ht, hth, hhost, hexpires', hrotation⟩ := h.rows row hmem th htoken
        obtain rfl := Option.some.inj (hexpires.symm.trans hexpires')
        -- the rows that still have a token after the update had it before, and are another row
        have hrows : ∀ a' ∈ Keyed.modify HostAgentRecord.id agent.id
            (fun row => { row with
              installTokenHash := none, installTokenExpiresAt := none
              installTokenUsedAt := some w.clock }) w.agents,
            ∀ th', a'.installTokenHash = some th' → a' ∈ w.agents ∧ th' ≠ th := by
          intro a' ha' th' hth'
          obtain ⟨a, ha, rfl⟩ := Keyed.mem_modify.mp ha'
          split at hth'
          · cases hth'
          · rename_i hne
            rw [if_neg hne]
            refine ⟨ha, ?_⟩
            rintro rfl
            exact hne ((h.unique a ha row hmem th' hth' htoken).trans hid)
        have hkeep : ∀ yielded, (∀ th', th' ∉ w.yielded.map (·.tokenHash) → th' ≠ th →
            th' ∉ yielded.map YieldedCredentials.tokenHash) →
            TokensSafe tools { w with yielded } → CredentialInv tools { w with
              agents := Keyed.modify HostAgentRecord.id agent.id
                (fun row => { row with
                  installTokenHash := none, installTokenExpiresAt := none
                  installTokenUsedAt := some w.clock }) w.agents
              calls := w.calls.set k .done
              yielded } := by
          intro yielded hnew hsafe
          refine h.of_rows ?_ ?_ ?_ rfl ?_ ?_ (hsafe.of_eq rfl rfl)
          · dsimp only
            rw [Keyed.map_key_modify_of]
            · exact h.ids
            · exact fun _ hid => hid
          · intro a' ha'
            obtain ⟨a, ha, rfl⟩ := Keyed.mem_modify.mp ha'
            split <;> exact h.below a ha
          · dsimp only
            rw [Keyed.map_modify_same]
            · exact h.hosts
            · exact fun _ => rfl
          · exact fun _ _ => found_of_mem_set fun _ _ => CredentialStage.noConfusion
          · intro a' ha' th' hth'
            obtain ⟨ha, hne⟩ := hrows a' ha' th' hth'
            exact ⟨a', ha, .refl a', rfl, hnew th' (h.rows a' ha th' hth').1 hne⟩
        cases hdecrypt : tools.decryptSensitiveData agent.secretEncrypted with
        | none => exact hkeep w.yielded (fun _ hnew _ => hnew) h.safe
        | some agentSecret =>
            refine hkeep _ ?_ ⟨?_, ?_, ?_⟩
            · intro th' hnew hne
              rw [List.map_append, List.mem_append, not_or]
              exact ⟨hnew, fun hlast => hne (List.mem_singleton.mp hlast)⟩
            · exact Keyed.nodup_append_singleton h.safe.once fun y hy heq =>
                hyielded (List.mem_map.mpr ⟨y, hy, heq⟩)
            · intro y hy
              rcases List.mem_append.mp hy with hy | hlast
              · exact h.safe.lawful y hy
              · obtain rfl := List.mem_singleton.mp hlast
                exact ⟨t, ht, hth, hhost, hnow, hrotation.symm⟩
            · intro y hy
              rcases List.mem_append.mp hy with hy | hlast
              · exact h.safe.current y hy
              · obtain rfl := List.mem_singleton.mp hlast
                exact ⟨hagentId.symm, hsecret.symm, by dsimp only; rw [hsecret, hdecrypt]⟩
      · exact hdone

/-- A report of the agent, or a host that goes with its row. -/
theorem CredentialInv.heartbeat {agentId : String} {report : HostAgentRecord → HostAgentRecord}
    (h : CredentialInv tools w) (hreport : ∀ a, KeptRow a (report a)) :
    CredentialInv tools
      { w with agents := Keyed.modify HostAgentRecord.agentId agentId report w.agents } := by
  have hkept : ∀ a' ∈ Keyed.modify HostAgentRecord.agentId agentId report w.agents,
      ∃ a ∈ w.agents, KeptRow a a' := by
    intro a' ha'
    obtain ⟨a, ha, rfl⟩ := Keyed.mem_modify.mp ha'
    refine ⟨a, ha, ?_⟩
    split
    · exact hreport a
    · exact .refl a
  refine h.of_rows ?_ ?_ ?_ rfl (fun _ _ hcall => hcall) ?_ (h.safe.of_eq rfl rfl)
  · dsimp only
    rw [Keyed.map_modify_same]
    · exact h.ids
    · exact fun a => (hreport a).id
  · intro a' ha'
    obtain ⟨a, ha, hrow⟩ := hkept a' ha'
    exact hrow.id ▸ h.below a ha
  · dsimp only
    rw [Keyed.map_modify_same]
    · exact h.hosts
    · exact fun a => (hreport a).hostId
  · intro a' ha' th hth
    obtain ⟨a, ha, hrow⟩ := hkept a' ha'
    exact ⟨a, ha, hrow, rfl, (h.rows a ha th (hrow.installTokenHash.symm.trans hth)).1⟩

theorem CredentialInv.removeRows {hosts : List ℕ} {p : HostAgentRecord → Bool}
    (h : CredentialInv tools w) :
    CredentialInv tools { w with hosts, agents := w.agents.filter p } :=
  h.of_rows (h.ids.sublist (List.Sublist.map _ List.filter_sublist))
    (fun a ha => h.below a (List.mem_of_mem_filter ha))
    (h.hosts.sublist (List.Sublist.map _ List.filter_sublist)) rfl (fun _ _ hcall => hcall)
    (fun a ha th hth => ⟨a, List.mem_of_mem_filter ha, .refl a, rfl,
      (h.rows a (List.mem_of_mem_filter ha) th hth).1⟩) (h.safe.of_eq rfl rfl)

/-- Every statement keeps the invariant, if the tokens that are stored are new. -/
theorem CredentialInv.step (h : CredentialInv tools w) (hok : FreshToken tools w event)
    (hs : credentialStep tools w event = some w') : CredentialInv tools w' := by
  have hgoto : ∀ k, CredentialInv tools (w.goto k .done) := fun _ =>
    h.goto fun _ _ => CredentialStage.noConfusion
  cases event with
  | rotateHostAgentCredentials | issueHostAgentInstallToken | consumeHostAgentInstallToken =>
      obtain rfl := Option.some.inj hs
      exact h.call fun _ _ => CredentialStage.noConfusion
  | upsert k agentId agentSecret =>
      simp only [credentialStep] at hs
      split at hs
      · split at hs <;> obtain rfl := Option.some.inj hs
        · exact hgoto k
        · exact h.upsert
      · cases hs
  | storeToken k installToken =>
      simp only [credentialStep] at hs
      split at hs
      · obtain rfl := Option.some.inj hs
        exact h.storeToken hok
      · cases hs
  | find k =>
      simp only [credentialStep] at hs
      split at hs
      · obtain rfl := Option.some.inj hs
        exact h.find
      · cases hs
  | use k =>
      simp only [credentialStep] at hs
      split at hs
      · rename_i hcall
        obtain rfl := Option.some.inj hs
        exact h.use hcall
      · cases hs
  | fail k =>
      obtain rfl := Option.some.inj hs
      exact hgoto k
  | heartbeat =>
      obtain rfl := Option.some.inj hs
      exact h.heartbeat fun _ => ⟨rfl, rfl, rfl, rfl, rfl, rfl⟩
  | removeHost hostId =>
      obtain rfl := Option.some.inj hs
      exact h.removeRows
  | addHost hostId =>
      obtain rfl := Option.some.inj hs
      exact h.of_rows h.ids h.below h.hosts rfl (fun _ _ hcall => hcall)
        (fun a ha th hth => ⟨a, ha, .refl a, rfl, (h.rows a ha th hth).1⟩) (h.safe.of_eq rfl rfl)
  | tick now =>
      simp only [credentialStep] at hs
      split at hs
      · obtain rfl := Option.some.inj hs
        exact h.of_rows h.ids h.below h.hosts rfl (fun _ _ hcall => hcall)
          (fun a ha th hth => ⟨a, ha, .refl a, rfl, (h.rows a ha th hth).1⟩) (h.safe.of_eq rfl rfl)
      · cases hs

end Invariant

/-- An installation without agents. -/
theorem credentialInv_start (tools : CredentialTools) (hosts : List ℕ) (clock : Time) :
    CredentialInv tools { hosts, clock } where
  ids := List.nodup_nil
  below := by simp
  hosts := List.nodup_nil
  rows := by simp
  unique := by simp
  found := by simp
  safe := ⟨List.nodup_nil, by simp, by simp⟩

/-- In every run in which no token is stored a second time, a token yields at most once, before
its expiry and no later rotation, and what it yields is on the row. -/
theorem tokens_safe (tools : CredentialTools) (hosts : List ℕ) (clock : Time) {w : CredentialWorld}
    (hrun : Machine.Reach (credentialStep tools) (FreshToken tools) { hosts, clock } w) :
    TokensSafe tools w :=
  (hrun.invariant (credentialInv_start tools hosts clock) fun h hok hs => h.step hok hs).safe

/-- Hashes and a cipher that one can read. -/
def CredentialTools.plain : CredentialTools where
  hashAgentSecret secret := secret
  encryptSensitiveData text := text
  decryptSensitiveData text := some text
  hashAgentInstallToken token := token

/-- Of two consumptions that find the token one yields, and a token that is found before a rotation
yields nothing after it. -/
theorem tokens_safe_raced :
    ∃ w : CredentialWorld,
      Machine.Reach (credentialStep .plain) (FreshToken .plain) { hosts := [7], clock := 100 } w ∧
      w.yielded.map (·.agentSecret) = ["ags_1"] ∧ w.issued.length = 2 ∧
      w.calls = List.replicate 6 .done ∧ TokensSafe .plain w := by
  let first := "ait_AAAAAAAAAAAAAAAAAAAAAAAAAAAAAAAAAAAAAAAAAAA"
  let second := "ait_BBBBBBBBBBBBBBBBBBBBBBBBBBBBBBBBBBBBBBBBBBB"
  let events : List CredentialEvent :=
    [.issueHostAgentInstallToken 7 true, .upsert 0 "agt_1" "ags_1", .storeToken 0 first,
      .consumeHostAgentInstallToken first, .consumeHostAgentInstallToken first, .find 1, .find 2,
      .use 2, .use 1,
      .issueHostAgentInstallToken 7 true, .upsert 3 "agt_2" "ags_2", .storeToken 3 second,
      .consumeHostAgentInstallToken second, .find 4, .rotateHostAgentCredentials 7 true,
      .upsert 5 "agt_3" "ags_3", .use 4]
  let fresh (w : CredentialWorld) : CredentialEvent → Bool
    | .storeToken _ installToken => !w.issued.any (·.tokenHash == installToken)
    | _ => true
  have hends : (Machine.exec (Machine.guarded (credentialStep .plain) fresh)
      { hosts := [7], clock := 100 } events).any (fun w =>
        w.yielded.map (·.agentSecret) == ["ags_1"] && w.issued.length == 2 &&
          w.calls == List.replicate 6 .done) = true := by decide
  obtain ⟨w, hexec, hfacts⟩ := Option.any_eq_true _ _ |>.mp hends
  simp only [Bool.and_eq_true, beq_iff_eq] at hfacts
  obtain ⟨⟨hyielded, hissued⟩, hcalls⟩ := hfacts
  have hrun : Machine.Reach (credentialStep .plain) (FreshToken .plain)
      { hosts := [7], clock := 100 } w := by
    refine (Machine.reach_of_exec_guarded hexec).mono fun w event hok => ?_
    cases event <;> first | trivial | skip
    simpa [FreshToken, fresh, CredentialTools.plain] using hok
  exact ⟨w, hrun, hyielded, hissued, hcalls, tokens_safe _ _ _ hrun⟩

end Incudal
