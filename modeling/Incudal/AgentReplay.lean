/-
# `AgentReplay` — a signed request is accepted once

A nonce is kept for twice the window of the timestamps, counted from the
reading of the clock before it is stored.  So a nonce expires only when the
timestamp of its request is stale, and a copy that comes in then is refused.
A copy that came in before may still be on its way to its own transaction, and
that transaction drops the expired nonce itself.  `keepsNonces` says of a step
that it drops no nonce of an accepted request of which a copy is in flight; in
the runs that meet it each request is accepted at most once.
-/
import Incudal.AgentAuth
import Mathlib

namespace Incudal

open Json (Value)

/-- What a nonce protects: two copies of a signed request agree in it. -/
structure RequestIdentity where
  agentId : String
  timestamp : String
  nonce : String
deriving DecidableEq, Repr

def AgentAuthHeaders.identity (h : AgentAuthHeaders) : RequestIdentity :=
  { agentId := h.agentId, timestamp := h.timestamp, nonce := h.nonce }

namespace AuthWorld

variable (w : AuthWorld)

/-- The requests that have been accepted, latest first. -/
def acceptedIds : List RequestIdentity := w.accepted.map (·.headers.identity)

/-- A copy of an accepted request with this agent and nonce is in flight. -/
def copyInFlight (agentId nonce : String) : Bool :=
  w.inFlight.any fun p => p.headers.agentId == agentId && p.headers.nonce == nonce &&
    decide (p.headers.identity ∈ w.acceptedIds)

end AuthWorld

/-- The step drops no nonce of an accepted request of which a copy is in flight. -/
def keepsNonces (w : AuthWorld) : AuthEvent → Bool
  | .commit id =>
      match w.request id with
      | some p =>
          match p.stage with
          | .prepared _ purgeBefore _ =>
              w.nonces.all fun n => !decide (n.expiresAt < purgeBefore) ||
                !w.copyInFlight n.agentId n.nonce
          | _ => true
      | none => true
  | _ => true

structure AuthWorld.AuthStart (w : AuthWorld) : Prop where
  retired : w.retired = []
  nonces : w.nonces = []
  inFlight : w.inFlight = []
  accepted : w.accepted = []

/-! ## What an accepted request shows -/

/-- A text without line breaks. -/
def OneLine (s : String) : Prop := '\n' ∉ s.toList

/-- A payload that a signer can have: only its path may hold anything. -/
structure AgentSigningPayload.Lines (payload : AgentSigningPayload) : Prop where
  method : OneLine payload.method.toUpper
  timestamp : OneLine payload.timestamp
  nonce : OneLine payload.nonce
  bodyHash : OneLine payload.bodyHash.toLower

/-- Two texts with one digest. -/
def AuthTools.Collision (tools : AuthTools) (secret : String) : Prop :=
  (∃ text text', text ≠ text' ∧ tools.hmac secret text = tools.hmac secret text') ∨
    ∃ text text', text ≠ text' ∧ (tools.sha256 text).toLower = (tools.sha256 text').toLower

/-- The request was signed: its signature is the one for the method, path,
timestamp, nonce and body that came in, and whoever has made the same signature
under that secret has signed just these, or has found a collision. -/
structure AcceptedRequest.Signed (tools : AuthTools) (a : AcceptedRequest) : Prop where
  signature : tools.createAgentSignature a.secret (tools.signingPayload a.request a.headers)
    = a.headers.signature.toLower
  only : ∀ (payload : AgentSigningPayload) (body : Value), payload.Lines →
    payload.bodyHash = tools.createAgentBodyHash body →
    tools.createAgentSignature a.secret payload = a.headers.signature.toLower →
    (payload.method.toUpper = a.request.method.name ∧
      payload.path = buildRequestPath a.request.url ∧
      payload.timestamp = a.headers.timestamp ∧ payload.nonce = a.headers.nonce ∧
      stableStringifyAgentBody tools.floatText body
        = stableStringifyAgentBody tools.floatText (requestBody a.request.body)) ∨
    tools.Collision a.secret

section Payloads

variable {tools : AuthTools}

theorem append_inj_of_not_mem {a a' r r' : List Char} {c : Char} (ha : c ∉ a) (ha' : c ∉ a')
    (h : a ++ c :: r = a' ++ c :: r') : a = a' ∧ r = r' := by
  induction a generalizing a' with
  | nil =>
      cases a' with
      | nil => exact ⟨rfl, (List.cons.inj h).2⟩
      | cons d a' =>
          exact absurd ((List.cons.inj h).1 ▸ List.mem_cons_self) ha'
  | cons d a ih =>
      cases a' with
      | nil => exact absurd ((List.cons.inj h).1 ▸ List.mem_cons_self) ha
      | cons d' a' =>
          obtain ⟨rfl, htail⟩ := List.cons.inj h
          obtain ⟨rfl, hr⟩ := ih (fun hin => ha (List.mem_cons_of_mem _ hin))
            (fun hin => ha' (List.mem_cons_of_mem _ hin)) htail
          exact ⟨rfl, hr⟩

theorem append_inj_of_not_mem_right {a a' r r' : List Char} {c : Char} (hr : c ∉ r) (hr' : c ∉ r')
    (h : a ++ c :: r = a' ++ c :: r') : a = a' ∧ r = r' := by
  have hrev := congrArg List.reverse h
  simp only [List.reverse_append, List.reverse_cons, List.append_assoc, List.singleton_append]
    at hrev
  obtain ⟨h₁, h₂⟩ := append_inj_of_not_mem (by simpa using hr) (by simpa using hr') hrev
  exact ⟨List.reverse_injective h₂, List.reverse_injective h₁⟩

theorem toList_signingPayload (payload : AgentSigningPayload) :
    (buildAgentSigningPayload payload).toList
      = payload.method.toUpper.toList ++ '\n' :: (((payload.path.toList ++ '\n' ::
          payload.timestamp.toList) ++ '\n' :: payload.nonce.toList) ++ '\n' ::
          payload.bodyHash.toLower.toList) := by
  simp [buildAgentSigningPayload, String.intercalate_cons_cons]

/-- The lines of a payload can be told apart. -/
theorem signingPayload_inj {p q : AgentSigningPayload} (hp : p.Lines) (hq : q.Lines)
    (h : buildAgentSigningPayload p = buildAgentSigningPayload q) :
    p.method.toUpper = q.method.toUpper ∧ p.path = q.path ∧ p.timestamp = q.timestamp ∧
      p.nonce = q.nonce ∧ p.bodyHash.toLower = q.bodyHash.toLower := by
  have hlist := congrArg String.toList h
  rw [toList_signingPayload, toList_signingPayload] at hlist
  obtain ⟨hmethod, hrest⟩ := append_inj_of_not_mem hp.method hq.method hlist
  obtain ⟨hrest, hhash⟩ := append_inj_of_not_mem_right hp.bodyHash hq.bodyHash hrest
  obtain ⟨hrest, hnonce⟩ := append_inj_of_not_mem_right hp.nonce hq.nonce hrest
  obtain ⟨hpath, htimestamp⟩ := append_inj_of_not_mem_right hp.timestamp hq.timestamp hrest
  exact ⟨String.toList_inj.mp hmethod, String.toList_inj.mp hpath, String.toList_inj.mp htimestamp,
    String.toList_inj.mp hnonce, String.toList_inj.mp hhash⟩

end Payloads

/-! ## What the checks establish -/

section Checks

variable {tools : AuthTools} {r : AgentRequest} {headers : AgentAuthHeaders} {now : Time}
  {agent : Option HostAgent} {secret : String}

/-- The headers of a request in flight have been checked. -/
structure Checked (tools : AuthTools) (r : AgentRequest) (headers : AgentAuthHeaders) : Prop where
  valid : validateAgentHeaders headers = none
  hash : tools.createAgentBodyHash (requestBody r.body) = headers.bodyHash.toLower

theorem receive_ok (h : tools.receive now r = .ok headers) :
    Checked tools r headers ∧ isAgentTimestampFresh headers.timestamp now = true := by
  unfold AuthTools.receive at h
  split at h
  · cases h
  split at h
  · cases h
  rename_i hvalid
  split at h
  · cases h
  rename_i hfresh
  split at h
  · cases h
  rename_i hhash
  cases h
  exact ⟨⟨hvalid, not_not.mp hhash⟩, by simpa using hfresh⟩

theorem fresh_bounds {timestamp : String} (h : isAgentTimestampFresh timestamp now = true) :
    timestampMs timestamp ≤ now + agentTimestampWindowMs ∧
      now ≤ timestampMs timestamp + agentTimestampWindowMs := by
  simp only [isAgentTimestampFresh] at h
  split at h
  · have hle : |now - timestampMs timestamp| ≤ agentTimestampWindowMs := of_decide_eq_true h
    obtain ⟨hlow, hhigh⟩ := abs_le.mp hle
    constructor
    · exact (neg_le_sub_iff_le_add'.mp hlow).trans_eq (add_comm _ _)
    · exact sub_le_iff_le_add'.mp hhigh
  · cases h

theorem verify_ok (h : tools.verify r headers agent = .ok secret) :
    tools.verifyAgentSignature secret (tools.signingPayload r headers) headers.signature = true := by
  unfold AuthTools.verify at h
  split at h
  · cases h
  split at h
  · cases h
  split at h
  · cases h
  split at h
  · cases h
  split at h
  · cases h
  rename_i hsignature
  cases h
  simpa using hsignature

theorem mem_of_matchesClass {p : Char → Bool} {low high : ℕ} {cs : List Char}
    (h : matchesClass p low high cs = true) : ∀ c ∈ cs, p c = true := by
  simp only [matchesClass, Bool.and_eq_true] at h
  exact List.all_eq_true.mp h.2

theorem oneLine_of_matchesClass {p : Char → Bool} {low high : ℕ} {s : String}
    (h : matchesClass p low high s.toList = true) (hp : p '\n' = false) : OneLine s := by
  intro hin
  rw [mem_of_matchesClass h _ hin] at hp
  cases hp

theorem isValid_of_validate (h : validateAgentHeaders headers = none) :
    isValidTimestamp headers.timestamp = true ∧ isValidNonce headers.nonce = true ∧
      isSha256Hex headers.bodyHash = true := by
  unfold validateAgentHeaders at h
  split at h
  · cases h
  split at h
  · cases h
  rename_i htimestamp
  split at h
  · cases h
  rename_i hnonce
  split at h
  · cases h
  rename_i hhash
  exact ⟨by simpa using htimestamp, by simpa using hnonce, by simpa using hhash⟩

theorem toLower_ne_newline {c : Char} (h : c.toLower = '\n') : c = '\n' := by
  unfold Char.toLower at h
  split at h
  · -- an upper-case letter is far from a line break
    rename_i hupper
    have hv : c.val + 32 = 10 := congrArg Char.val h
    have hge := UInt32.le_iff_toNat_le.mp hupper.1
    have hle := UInt32.le_iff_toNat_le.mp hupper.2
    have hsum := congrArg UInt32.toNat hv
    rw [UInt32.toNat_add] at hsum
    simp at hge hle hsum
    omega
  · exact h

theorem oneLine_toLower {s : String} (h : OneLine s) : OneLine s.toLower := by
  intro hin
  rw [String.toLower, String.toList_map] at hin
  obtain ⟨c, hc, hlower⟩ := List.mem_map.mp hin
  exact h (toLower_ne_newline hlower ▸ hc)

theorem toUpper_name (m : HttpMethod) : m.name.toUpper = m.name := by
  cases m <;> decide +kernel

theorem oneLine_name (m : HttpMethod) : OneLine m.name := by
  cases m <;> unfold OneLine <;> decide

theorem lines_signingPayload (h : Checked tools r headers) :
    (tools.signingPayload r headers).Lines := by
  obtain ⟨htimestamp, hnonce, hhash⟩ := isValid_of_validate h.valid
  refine ⟨?_, oneLine_of_matchesClass htimestamp rfl, oneLine_of_matchesClass hnonce rfl, ?_⟩
  · show OneLine r.method.name.toUpper
    rw [toUpper_name]
    exact oneLine_name r.method
  · show OneLine (tools.createAgentBodyHash (requestBody r.body)).toLower
    rw [h.hash]
    exact oneLine_toLower (oneLine_toLower (oneLine_of_matchesClass hhash rfl))

/-- A request that passes all checks was signed. -/
theorem signed_of_verified (h : Checked tools r headers)
    (hv : tools.verifyAgentSignature secret (tools.signingPayload r headers) headers.signature
      = true) : ({ request := r, headers, secret } : AcceptedRequest).Signed tools := by
  have hsignature : tools.createAgentSignature secret (tools.signingPayload r headers)
      = headers.signature.toLower := by
    unfold AuthTools.verifyAgentSignature at hv
    split at hv
    · cases hv
    · simpa using hv
  refine ⟨hsignature, fun payload body hlines hbody hsame => ?_⟩
  show _ ∨ tools.Collision secret
  by_cases hpayload : buildAgentSigningPayload payload
      = buildAgentSigningPayload (tools.signingPayload r headers)
  · obtain ⟨hmethod, hpath, htimestamp, hnonce, hhash⟩ :=
      signingPayload_inj hlines (lines_signingPayload h) hpayload
    by_cases htext : String.ofList (stableStringifyAgentBody tools.floatText body)
        = String.ofList (stableStringifyAgentBody tools.floatText (requestBody r.body))
    · exact .inl ⟨hmethod.trans (toUpper_name r.method), hpath, htimestamp, hnonce,
        String.ofList_injective htext⟩
    · refine .inr (.inr ⟨_, _, htext, ?_⟩)
      rw [hbody] at hhash
      exact hhash
  · exact .inr (.inl ⟨_, _, hpayload, hsame.trans hsignature.symm⟩)

end Checks

/-! ## The invariant -/

section Replay

variable {tools : AuthTools} {w₀ w w' : AuthWorld} {e : AuthEvent}

/-- When the timestamp of a request becomes stale. -/
def RequestIdentity.staleAt (i : RequestIdentity) : Time :=
  timestampMs i.timestamp + agentTimestampWindowMs

/-- What holds of a request in flight. -/
structure InFlight.Ok (tools : AuthTools) (now : Time) (p : InFlight) : Prop where
  checked : Checked tools p.request p.headers
  begun : timestampMs p.headers.timestamp ≤ now + agentTimestampWindowMs
  prepared : ∀ secret purgeBefore expiresAt, p.stage = .prepared secret purgeBefore expiresAt →
    purgeBefore ≤ now ∧ p.headers.identity.staleAt ≤ expiresAt ∧
      tools.verifyAgentSignature secret (tools.signingPayload p.request p.headers)
        p.headers.signature = true

/-- What keeps an accepted request from being accepted again: its nonce, which
stays until its timestamp is stale; or a stale timestamp, when no copy is in
flight any more; or that its agent is gone. -/
def AuthWorld.Kept (w : AuthWorld) (i : RequestIdentity) : Prop :=
  (∃ n ∈ w.nonces, n.agentId = i.agentId ∧ n.nonce = i.nonce ∧ i.staleAt ≤ n.expiresAt) ∨
    (i.staleAt < w.now ∧ ∀ p ∈ w.inFlight, p.headers.identity ≠ i) ∨ i.agentId ∈ w.retired

structure AuthInv (tools : AuthTools) (w : AuthWorld) : Prop where
  ids : (w.inFlight.map InFlight.id).Nodup
  old : ∀ p ∈ w.inFlight, p.id < w.nextId
  ok : ∀ p ∈ w.inFlight, p.Ok tools w.now
  retired : ∀ agentId ∈ w.retired, w.agents agentId = none
  kept : ∀ i ∈ w.acceptedIds, w.Kept i
  once : w.acceptedIds.Nodup
  signed : ∀ a ∈ w.accepted, a.Signed tools

theorem inv_authStart (h : w.AuthStart) : AuthInv tools w where
  ids := by simp [h.inFlight]
  old := by simp [h.inFlight]
  ok := by simp [h.inFlight]
  retired := by simp [h.retired]
  kept := by simp [AuthWorld.acceptedIds, h.accepted]
  once := by simp [AuthWorld.acceptedIds, h.accepted]
  signed := by simp [h.accepted]

/-- What a step may do. -/
inductive AuthChange (tools : AuthTools) (w w' : AuthWorld) : Prop
  | quiet (now : w.now ≤ w'.now) (nonces : w'.nonces = w.nonces) (retired : w'.retired = w.retired)
      (agents : ∀ agentId ∈ w.retired, w'.agents agentId = w.agents agentId)
      (flight : ∀ p ∈ w'.inFlight, ∃ q ∈ w.inFlight, q.headers = p.headers)
      (accepted : w'.accepted = w.accepted)
  | deleted (agentId : String) (now : w'.now = w.now)
      (nonces : w'.nonces = w.nonces.filter fun n => n.agentId != agentId)
      (retired : w'.retired = agentId :: w.retired)
      (agents : w'.agents = Function.update w.agents agentId none)
      (flight : w'.inFlight = w.inFlight) (accepted : w'.accepted = w.accepted)
  | received {p : InFlight} (fresh : w.now ≤ p.headers.identity.staleAt) (now : w'.now = w.now)
      (nonces : w'.nonces = w.nonces) (retired : w'.retired = w.retired)
      (agents : w'.agents = w.agents) (flight : w'.inFlight = p :: w.inFlight)
      (accepted : w'.accepted = w.accepted)
  | committed {p : InFlight} {secret : String} {purgeBefore expiresAt : Time}
      {nonces : List AgentNonce} (mem : p ∈ w.inFlight)
      (stage : p.stage = .prepared secret purgeBefore expiresAt)
      (stored : w.storeNonce p.headers purgeBefore expiresAt = .ok nonces)
      (kept : ∀ n ∈ w.nonces, n.expiresAt < purgeBefore →
        w.copyInFlight n.agentId n.nonce = false)
      (now : w'.now = w.now) (after : w'.nonces = nonces) (retired : w'.retired = w.retired)
      (agents : w'.agents = w.agents) (flight : ∀ q ∈ w'.inFlight, q ∈ w.inFlight)
      (accepted : w'.accepted = { request := p.request, headers := p.headers, secret } :: w.accepted)

theorem mem_inFlight_of_request {id : ℕ} {p : InFlight} (h : w.request id = some p) :
    p ∈ w.inFlight := (Keyed.mem_of_lookup h).1

theorem mem_drop {id : ℕ} {p : InFlight} (h : p ∈ (w.drop id).inFlight) : p ∈ w.inFlight :=
  (Keyed.mem_erase.mp h).1

theorem mem_setStage {id : ℕ} {stage : AuthStage} {p : InFlight}
    (h : p ∈ (w.setStage id stage).inFlight) :
    ∃ q ∈ w.inFlight, p = q ∨ (q.id = id ∧ p = { q with stage }) := by
  obtain ⟨q, hq, rfl⟩ := Keyed.mem_modify.mp h
  refine ⟨q, hq, ?_⟩
  split
  · rename_i hid
    exact .inr ⟨hid, rfl⟩
  · exact .inl rfl

theorem headers_setStage {id : ℕ} {stage : AuthStage} :
    ∀ p ∈ (w.setStage id stage).inFlight, ∃ q ∈ w.inFlight, q.headers = p.headers := by
  intro p hp
  obtain ⟨q, hq, rfl | ⟨-, rfl⟩⟩ := mem_setStage hp
  · exact ⟨p, hq, rfl⟩
  · exact ⟨q, hq, rfl⟩

theorem headers_drop {id : ℕ} :
    ∀ p ∈ (w.drop id).inFlight, ∃ q ∈ w.inFlight, q.headers = p.headers :=
  fun p hp => ⟨p, mem_drop hp, rfl⟩

theorem headers_same : ∀ p ∈ w.inFlight, ∃ q ∈ w.inFlight, q.headers = p.headers :=
  fun p hp => ⟨p, hp, rfl⟩

theorem authChange_of_step (hok : keepsNonces w e = true) (hs : authStep tools w e = some w') :
    AuthChange tools w w' := by
  cases e with
  | advance now =>
      simp only [authStep] at hs
      split at hs
      · rename_i hle
        cases hs
        exact .quiet hle rfl rfl (fun _ _ => rfl) headers_same rfl
      · cases hs
  | saveAgent agentId agent =>
      simp only [authStep] at hs
      split at hs
      · cases hs
      · rename_i hnew
        cases hs
        refine .quiet le_rfl rfl rfl (fun id hid => ?_) headers_same rfl
        exact Function.update_of_ne (fun he : id = agentId => hnew (he ▸ hid)) _ _
  | deleteAgent agentId =>
      cases hs
      exact .deleted agentId rfl rfl rfl rfl rfl rfl
  | receive r =>
      simp only [authStep] at hs
      split at hs
      · cases hs
        exact .quiet le_rfl rfl rfl (fun _ _ => rfl) headers_same rfl
      · rename_i headers hreceive
        cases hs
        have hfresh := (fresh_bounds (receive_ok hreceive).2).2
        exact .received (p := { id := w.nextId, request := r, headers, stage := .received })
          hfresh rfl rfl rfl rfl rfl rfl
  | find id =>
      simp only [authStep] at hs
      split at hs
      · split at hs
        · cases hs
          exact .quiet le_rfl rfl rfl (fun _ _ => rfl) headers_setStage rfl
        · cases hs
      · cases hs
  | verify id createdAt =>
      simp only [authStep] at hs
      split at hs
      · rename_i hle
        split at hs
        · split at hs
          · split at hs
            · cases hs
              exact .quiet hle rfl rfl (fun _ _ => rfl) headers_drop rfl
            · cases hs
              exact .quiet hle rfl rfl (fun _ _ => rfl) headers_setStage rfl
          · cases hs
        · cases hs
      · cases hs
  | commit id =>
      simp only [authStep] at hs
      split at hs
      · rename_i p hp
        split at hs
        · rename_i secret purgeBefore expiresAt hstage
          split at hs
          · cases hs
            exact .quiet le_rfl rfl rfl (fun _ _ => rfl) headers_drop rfl
          · rename_i nonces hstored
            cases hs
            refine .committed (mem_inFlight_of_request hp) hstage hstored (fun n hn hlt => ?_)
              rfl rfl rfl rfl (fun q hq => mem_drop hq) rfl
            simp only [keepsNonces, hp, hstage] at hok
            have := List.all_eq_true.mp hok n hn
            simpa [hlt] using this
        · cases hs
      · cases hs
  | abort id =>
      cases hs
      exact .quiet le_rfl rfl rfl (fun _ _ => rfl) headers_drop rfl

/-! ### The nonces -/

theorem storeNonce_ok {headers : AgentAuthHeaders} {purgeBefore expiresAt : Time}
    {nonces : List AgentNonce} (h : w.storeNonce headers purgeBefore expiresAt = .ok nonces) :
    nonces = w.noncesFrom purgeBefore ++
        [{ agentId := headers.agentId, nonce := headers.nonce, expiresAt }] ∧
      (∀ n ∈ w.noncesFrom purgeBefore, ¬ (n.agentId = headers.agentId ∧ n.nonce = headers.nonce)) ∧
      w.agents headers.agentId ≠ none := by
  simp only [AuthWorld.storeNonce] at h
  split at h
  · cases h
  rename_i hunique
  split at h
  · cases h
  rename_i hagent
  cases h
  refine ⟨rfl, fun n hn heq => hunique ?_, by simpa using hagent⟩
  exact List.any_eq_true.mpr ⟨n, hn, by simp [heq.1, heq.2]⟩

/-- The nonce of an accepted request that has a copy in flight outlives a
transaction under the guard. -/
theorem mem_noncesFrom {purgeBefore : Time} {i : RequestIdentity} {n : AgentNonce} {p : InFlight}
    (hkept : ∀ n ∈ w.nonces, n.expiresAt < purgeBefore → w.copyInFlight n.agentId n.nonce = false)
    (hn : n ∈ w.nonces) (hagent : n.agentId = i.agentId) (hnonce : n.nonce = i.nonce)
    (hi : i ∈ w.acceptedIds) (hp : p ∈ w.inFlight) (hcopy : p.headers.identity = i) :
    n ∈ w.noncesFrom purgeBefore := by
  refine List.mem_filter.mpr ⟨hn, ?_⟩
  simp only [Bool.not_eq_true', decide_eq_false_iff_not]
  intro hlt
  have hcopyFlight : w.copyInFlight n.agentId n.nonce = true := by
    refine List.any_eq_true.mpr ⟨p, hp, ?_⟩
    subst hcopy
    have h₁ : p.headers.agentId = n.agentId := hagent.symm
    have h₂ : p.headers.nonce = n.nonce := hnonce.symm
    simp [h₁, h₂, hi]
  rw [hkept n hn hlt] at hcopyFlight
  cases hcopyFlight

/-- A copy of an accepted request does not get its nonce stored again. -/
theorem not_mem_accepted_of_stored {p : InFlight} {purgeBefore expiresAt : Time}
    {nonces : List AgentNonce} (hinv : AuthInv tools w) (hp : p ∈ w.inFlight)
    (hstored : w.storeNonce p.headers purgeBefore expiresAt = .ok nonces)
    (hkept : ∀ n ∈ w.nonces, n.expiresAt < purgeBefore →
      w.copyInFlight n.agentId n.nonce = false) : p.headers.identity ∉ w.acceptedIds := by
  intro hi
  obtain ⟨-, hunique, hagent⟩ := storeNonce_ok hstored
  rcases hinv.kept _ hi with ⟨n, hn, hid, hnonce, -⟩ | ⟨-, hnone⟩ | hretired
  · exact hunique n (mem_noncesFrom hkept hn hid hnonce hi hp rfl) ⟨hid, hnonce⟩
  · exact hnone p hp rfl
  · exact hagent (hinv.retired _ hretired)

theorem AuthWorld.Kept.mono {i : RequestIdentity} (h : w.Kept i) (hnow : w.now ≤ w'.now)
    (hnonces : ∀ n ∈ w.nonces, n ∈ w'.nonces) (hretired : ∀ a ∈ w.retired, a ∈ w'.retired)
    (hflight : ∀ p ∈ w'.inFlight, ∃ q ∈ w.inFlight, q.headers = p.headers) : w'.Kept i := by
  rcases h with ⟨n, hn, h⟩ | ⟨hstale, hnone⟩ | hretired'
  · exact .inl ⟨n, hnonces n hn, h⟩
  · refine .inr (.inl ⟨hstale.trans_le hnow, fun p hp heq => ?_⟩)
    obtain ⟨q, hq, hheaders⟩ := hflight p hp
    exact hnone q hq (hheaders ▸ heq)
  · exact .inr (.inr (hretired _ hretired'))

theorem kept_of_step (hinv : AuthInv tools w) (hchange : AuthChange tools w w') :
    ∀ i ∈ w'.acceptedIds, w'.Kept i := by
  cases hchange with
  | quiet now nonces retired agents flight accepted =>
      intro i hi
      simp only [AuthWorld.acceptedIds, accepted] at hi
      exact (hinv.kept i hi).mono now (nonces ▸ fun _ h => h) (retired ▸ fun _ h => h) flight
  | deleted agentId now nonces retired agents flight accepted =>
      intro i hi
      simp only [AuthWorld.acceptedIds, accepted] at hi
      by_cases hid : i.agentId = agentId
      · exact .inr (.inr (by rw [retired, hid]; exact List.mem_cons_self))
      rcases hinv.kept i hi with ⟨n, hn, hagent, h⟩ | ⟨hstale, hnone⟩ | hretired
      · refine .inl ⟨n, ?_, hagent, h⟩
        rw [nonces]
        exact List.mem_filter.mpr ⟨hn, by simp [hagent, hid]⟩
      · exact .inr (.inl ⟨now ▸ hstale, flight ▸ hnone⟩)
      · exact .inr (.inr (by rw [retired]; exact List.mem_cons_of_mem _ hretired))
  | @received p fresh now nonces retired agents flight accepted =>
      intro i hi
      simp only [AuthWorld.acceptedIds, accepted] at hi
      rcases hinv.kept i hi with ⟨n, hn, h⟩ | ⟨hstale, hnone⟩ | hretired
      · exact .inl ⟨n, nonces ▸ hn, h⟩
      · refine .inr (.inl ⟨now ▸ hstale, fun q hq heq => ?_⟩)
        rw [flight] at hq
        rcases List.mem_cons.mp hq with rfl | hq
        · -- a copy that comes in now is too old
          rw [heq] at fresh
          exact absurd hstale (not_lt.mpr fresh)
        · exact hnone q hq heq
      · exact .inr (.inr (retired ▸ hretired))
  | @committed p secret purgeBefore expiresAt stored mem stage hstored kept now after retired agents
      flight accepted =>
      obtain ⟨hpurge, hexpires, -⟩ := (hinv.ok p mem).prepared _ _ _ stage
      obtain ⟨rfl, -, -⟩ := storeNonce_ok hstored
      intro i hi
      simp only [AuthWorld.acceptedIds, accepted, List.map_cons, List.mem_cons] at hi
      rcases hi with rfl | hi
      · refine .inl ⟨{ agentId := p.headers.agentId, nonce := p.headers.nonce, expiresAt }, ?_, rfl,
          rfl, hexpires⟩
        rw [after]
        exact List.mem_append_right _ (List.mem_singleton_self _)
      rcases hinv.kept i hi with ⟨n, hn, hagent, hnonce, hstale⟩ | ⟨hstale, hnone⟩ | hretired
      · by_cases hin : n ∈ w.noncesFrom purgeBefore
        · exact .inl ⟨n, by rw [after]; exact List.mem_append_left _ hin, hagent, hnonce, hstale⟩
        · -- the nonce has expired: its request is stale and has no copy in flight
          have hlt : n.expiresAt < purgeBefore := by
            by_contra hge
            exact hin (List.mem_filter.mpr ⟨hn, by simpa using hge⟩)
          refine .inr (.inl ⟨?_, fun q hq heq => hin ?_⟩)
          · rw [now]
            exact hstale.trans_lt (hlt.trans_le hpurge)
          · exact mem_noncesFrom kept hn hagent hnonce hi (flight q hq) heq
      · exact .inr (.inl ⟨now ▸ hstale, fun q hq => hnone q (flight q hq)⟩)
      · exact .inr (.inr (retired ▸ hretired))

/-! ### The requests in flight -/

theorem InFlight.Ok.mono {p : InFlight} {now now' : Time} (h : p.Ok tools now) (hnow : now ≤ now') :
    p.Ok tools now' where
  checked := h.checked
  begun := h.begun.trans (add_le_add_left hnow _)
  prepared secret purgeBefore expiresAt hstage :=
    have := h.prepared secret purgeBefore expiresAt hstage
    ⟨this.1.trans hnow, this.2⟩

/-- A stage without a nonce puts nothing at risk. -/
theorem InFlight.Ok.setStage {p : InFlight} {now : Time} {stage : AuthStage} (h : p.Ok tools now)
    (hstage : ∀ secret purgeBefore expiresAt, stage ≠ .prepared secret purgeBefore expiresAt) :
    ({ p with stage } : InFlight).Ok tools now where
  checked := h.checked
  begun := h.begun
  prepared secret purgeBefore expiresAt heq := absurd heq (hstage secret purgeBefore expiresAt)

/-- The two constants: the window once before the timestamp and once after it. -/
theorem nonce_outlives {timestamp now createdAt : ℤ}
    (hbegun : timestamp ≤ now + agentTimestampWindowMs) (hnow : now ≤ createdAt) :
    timestamp + agentTimestampWindowMs ≤ createdAt + agentNonceTtlMs := by
  simp only [agentTimestampWindowMs, agentNonceTtlMs] at hbegun ⊢
  omega

/-- A request that has been verified: its nonce is kept until its timestamp is
stale. -/
theorem InFlight.Ok.prepare {p : InFlight} {now createdAt : Time} {secret : String}
    (h : p.Ok tools now) (hnow : now ≤ createdAt)
    (hv : tools.verifyAgentSignature secret (tools.signingPayload p.request p.headers)
      p.headers.signature = true) :
    ({ p with stage := .prepared secret now (createdAt + agentNonceTtlMs) } : InFlight).Ok tools
      createdAt where
  checked := h.checked
  begun := h.begun.trans (add_le_add_left hnow _)
  prepared secret' purgeBefore expiresAt heq := by
    cases heq
    refine ⟨hnow, ?_, hv⟩
    exact nonce_outlives h.begun hnow

theorem eq_of_request_id {id : ℕ} {p q : InFlight} (hinv : AuthInv tools w)
    (hp : w.request id = some p) (hq : q ∈ w.inFlight) (hid : q.id = id) : q = p := by
  have hself := Keyed.lookup_of_mem hinv.ids hq
  rw [hid] at hself
  exact Option.some.inj (hself.symm.trans hp)

theorem ok_of_step (hinv : AuthInv tools w) (hs : authStep tools w e = some w') :
    ∀ p ∈ w'.inFlight, p.Ok tools w'.now := by
  cases e with
  | advance now =>
      simp only [authStep] at hs
      split at hs
      · rename_i hle
        cases hs
        exact fun p hp => (hinv.ok p hp).mono hle
      · cases hs
  | saveAgent agentId agent =>
      simp only [authStep] at hs
      split at hs
      · cases hs
      · cases hs
        exact hinv.ok
  | deleteAgent agentId =>
      cases hs
      exact hinv.ok
  | receive r =>
      simp only [authStep] at hs
      split at hs
      · cases hs
        exact hinv.ok
      · rename_i headers hreceive
        cases hs
        obtain ⟨hchecked, hfresh⟩ := receive_ok hreceive
        intro p hp
        rcases List.mem_cons.mp hp with rfl | hp
        · exact ⟨hchecked, (fresh_bounds hfresh).1, fun _ _ _ heq => by cases heq⟩
        · exact hinv.ok p hp
  | find id =>
      simp only [authStep] at hs
      split at hs
      · split at hs
        · cases hs
          intro p hp
          obtain ⟨q, hq, rfl | ⟨-, rfl⟩⟩ := mem_setStage hp
          · exact hinv.ok p hq
          · exact (hinv.ok q hq).setStage nofun
        · cases hs
      · cases hs
  | verify id createdAt =>
      simp only [authStep] at hs
      split at hs
      · rename_i hle
        split at hs
        · rename_i p₀ hp₀
          split at hs
          · split at hs
            · cases hs
              exact fun p hp => (hinv.ok p (mem_drop hp)).mono hle
            · rename_i secret hverify
              cases hs
              intro p hp
              obtain ⟨q, hq, rfl | ⟨hid, rfl⟩⟩ := mem_setStage hp
              · exact (hinv.ok p hq).mono hle
              · obtain rfl := eq_of_request_id hinv hp₀ hq hid
                exact (hinv.ok q hq).prepare hle (verify_ok hverify)
          · cases hs
        · cases hs
      · cases hs
  | commit id =>
      simp only [authStep] at hs
      split at hs
      · split at hs
        · split at hs
          · cases hs
            exact fun p hp => hinv.ok p (mem_drop hp)
          · cases hs
            exact fun p hp => hinv.ok p (mem_drop hp)
        · cases hs
      · cases hs
  | abort id =>
      cases hs
      exact fun p hp => hinv.ok p (mem_drop hp)

/-- The ids of the requests in flight: no new one, or the next. -/
theorem ids_of_step (hs : authStep tools w e = some w') :
    ((w'.inFlight.map InFlight.id).Sublist (w.inFlight.map InFlight.id) ∧ w'.nextId = w.nextId) ∨
      (w'.inFlight.map InFlight.id = w.nextId :: w.inFlight.map InFlight.id ∧
        w'.nextId = w.nextId + 1) := by
  have hset : ∀ (id : ℕ) (stage : AuthStage),
      (w.setStage id stage).inFlight.map InFlight.id = w.inFlight.map InFlight.id :=
    fun id stage => Keyed.map_key_modify fun _ => rfl
  have hdrop : ∀ id : ℕ, ((w.drop id).inFlight.map InFlight.id).Sublist
      (w.inFlight.map InFlight.id) := fun id => List.Sublist.map _ List.filter_sublist
  cases e with
  | advance now =>
      simp only [authStep] at hs
      split at hs
      · cases hs
        exact .inl ⟨List.Sublist.refl _, rfl⟩
      · cases hs
  | saveAgent agentId agent =>
      simp only [authStep] at hs
      split at hs
      · cases hs
      · cases hs
        exact .inl ⟨List.Sublist.refl _, rfl⟩
  | deleteAgent agentId =>
      cases hs
      exact .inl ⟨List.Sublist.refl _, rfl⟩
  | receive r =>
      simp only [authStep] at hs
      split at hs
      · cases hs
        exact .inl ⟨List.Sublist.refl _, rfl⟩
      · cases hs
        exact .inr ⟨rfl, rfl⟩
  | find id =>
      simp only [authStep] at hs
      split at hs
      · split at hs
        · cases hs
          exact .inl ⟨(hset _ _).symm ▸ List.Sublist.refl _, rfl⟩
        · cases hs
      · cases hs
  | verify id createdAt =>
      simp only [authStep] at hs
      split at hs
      · split at hs
        · split at hs
          · split at hs
            · cases hs
              exact .inl ⟨hdrop id, rfl⟩
            · cases hs
              exact .inl ⟨(hset _ _).symm ▸ List.Sublist.refl _, rfl⟩
          · cases hs
        · cases hs
      · cases hs
  | commit id =>
      simp only [authStep] at hs
      split at hs
      · split at hs
        · split at hs
          · cases hs
            exact .inl ⟨hdrop id, rfl⟩
          · cases hs
            exact .inl ⟨hdrop id, rfl⟩
        · cases hs
      · cases hs
  | abort id =>
      cases hs
      exact .inl ⟨hdrop id, rfl⟩

theorem inv_authStep (hinv : AuthInv tools w) (hok : keepsNonces w e = true)
    (hs : authStep tools w e = some w') : AuthInv tools w' := by
  have hchange := authChange_of_step hok hs
  have hold : ∀ id ∈ w.inFlight.map InFlight.id, id < w.nextId := by
    intro id hid
    obtain ⟨p, hp, rfl⟩ := List.mem_map.mp hid
    exact hinv.old p hp
  refine ⟨?_, ?_, ok_of_step hinv hs, ?_, kept_of_step hinv hchange, ?_, ?_⟩
  · rcases ids_of_step hs with ⟨hsub, -⟩ | ⟨hcons, -⟩
    · exact hinv.ids.sublist hsub
    · rw [hcons]
      exact List.nodup_cons.mpr ⟨fun hin => absurd (hold _ hin) (lt_irrefl _), hinv.ids⟩
  · intro p hp
    have hid := List.mem_map_of_mem (f := InFlight.id) hp
    rcases ids_of_step hs with ⟨hsub, hnext⟩ | ⟨hcons, hnext⟩
    · rw [hnext]
      exact hold _ (hsub.subset hid)
    · rw [hcons] at hid
      rw [hnext]
      rcases List.mem_cons.mp hid with hid | hid
      · omega
      · exact (hold _ hid).trans (Nat.lt_succ_self _)
  · cases hchange with
    | quiet now nonces retired agents flight accepted =>
        intro agentId hid
        rw [retired] at hid
        rw [agents agentId hid]
        exact hinv.retired agentId hid
    | deleted agentId now nonces retired agents flight accepted =>
        intro id hid
        rw [agents]
        by_cases heq : id = agentId
        · rw [heq, Function.update_self]
        · rw [retired] at hid
          rw [Function.update_of_ne heq]
          exact hinv.retired id ((List.mem_cons.mp hid).resolve_left heq)
    | received fresh now nonces retired agents flight accepted =>
        rw [retired, agents]
        exact hinv.retired
    | committed mem stage stored kept now after retired agents flight accepted =>
        rw [retired, agents]
        exact hinv.retired
  · cases hchange with
    | quiet now nonces retired agents flight accepted =>
        rw [AuthWorld.acceptedIds, accepted]
        exact hinv.once
    | deleted agentId now nonces retired agents flight accepted =>
        rw [AuthWorld.acceptedIds, accepted]
        exact hinv.once
    | received fresh now nonces retired agents flight accepted =>
        rw [AuthWorld.acceptedIds, accepted]
        exact hinv.once
    | committed mem stage stored kept now after retired agents flight accepted =>
        rw [AuthWorld.acceptedIds, accepted, List.map_cons]
        exact List.nodup_cons.mpr ⟨not_mem_accepted_of_stored hinv mem stored kept, hinv.once⟩
  · cases hchange with
    | quiet now nonces retired agents flight accepted =>
        rw [accepted]
        exact hinv.signed
    | deleted agentId now nonces retired agents flight accepted =>
        rw [accepted]
        exact hinv.signed
    | received fresh now nonces retired agents flight accepted =>
        rw [accepted]
        exact hinv.signed
    | @committed p secret purgeBefore expiresAt nonces mem stage stored kept now after retired agents
        flight accepted =>
        rw [accepted]
        have hp := hinv.ok p mem
        have hverified := (hp.prepared secret purgeBefore expiresAt stage).2.2
        exact List.forall_mem_cons.mpr ⟨signed_of_verified hp.checked hverified, hinv.signed⟩

/-- In every run whose steps drop no nonce of an accepted request of which a
copy is in flight, each signed request is accepted at most once, and each that
has been accepted was signed. -/
theorem agent_requests_once (hstart : w₀.AuthStart)
    (hrun : Machine.Reach (authStep tools) (keepsNonces · ·) w₀ w) :
    w.acceptedIds.Nodup ∧ ∀ a ∈ w.accepted, a.Signed tools := by
  have hinv : AuthInv tools w :=
    hrun.invariant (inv_authStart hstart) fun hinv hok hs => inv_authStep hinv hok hs
  exact ⟨hinv.once, hinv.signed⟩

/-! ## Two runs -/

/-- The digests of one request with the body `{}`. -/
def heartbeatTools : AuthTools where
  sha256 text :=
    if text = "{}" then "44136fa355b3678a1146ad16f7e8649e94fb4fc21fe77e8310c060f61caaff8a" else ""
  hmac secret text :=
    if secret = "ias_aaaaaaaaaaaaaaaaaaaaaaaaaaaaaaaa" ∧
        text = "POST\n/api/agent/heartbeat\n1777380300000\nnonce-123456\n" ++
          "44136fa355b3678a1146ad16f7e8649e94fb4fc21fe77e8310c060f61caaff8a" then
      "25e65d477d481f00b59ceee60b730e571a7caf8f7474635abad6ad4208e5c03f"
    else ""
  decryptSensitiveData := some
  floatText := id

def heartbeatAgentId : String := "agt_0123456789abcdefghijklmn"

/-- That request: the agent's clock is five minutes ahead. -/
def heartbeat : AgentRequest where
  method := .post
  url := "/api/agent/heartbeat"
  agentId := some heartbeatAgentId
  timestamp := some "1777380300000"
  nonce := some "nonce-123456"
  bodyHash := some "44136fa355b3678a1146ad16f7e8649e94fb4fc21fe77e8310c060f61caaff8a"
  signature := some "25e65d477d481f00b59ceee60b730e571a7caf8f7474635abad6ad4208e5c03f"
  body := some (.object [])

/-- One agent and no requests. -/
def quietPanel : AuthWorld where
  now := 1777380000000
  agents := fun agentId =>
    if agentId = heartbeatAgentId then
      some { enabled := true, secretEncrypted := "ias_aaaaaaaaaaaaaaaaaaaaaaaaaaaaaaaa" }
    else none

theorem quietPanel_start : quietPanel.AuthStart := ⟨rfl, rfl, rfl, rfl⟩

/-- The request is accepted. -/
theorem agent_requests_once_heartbeat :
    ∃ w, Machine.Reach (authStep heartbeatTools) (keepsNonces · ·) quietPanel w ∧
      w.acceptedIds.length = 1 ∧ w.acceptedIds.Nodup := by
  have hexec : (Machine.exec (Machine.guarded (authStep heartbeatTools) keepsNonces) quietPanel
      [.receive heartbeat, .find 0, .verify 0 1777380000000, .commit 0]).map
        (·.acceptedIds.length) = some 1 := by decide +kernel
  obtain ⟨w, hw, hlength⟩ := Option.map_eq_some_iff.mp hexec
  have hrun := Machine.reach_of_exec_guarded hw
  exact ⟨w, hrun, hlength, (agent_requests_once quietPanel_start hrun).1⟩

/-- A copy comes in at the last moment at which its timestamp is fresh and
reads the clock again a millisecond later: its transaction drops the nonce. -/
theorem copy_accepted_again :
    ∃ w, Machine.Reach (authStep heartbeatTools) Machine.free quietPanel w ∧
      ¬ w.acceptedIds.Nodup := by
  have hexec : (Machine.exec (authStep heartbeatTools) quietPanel
      [.receive heartbeat, .find 0, .verify 0 1777380000000, .commit 0,
        .advance 1777380600000, .receive heartbeat, .find 1, .advance 1777380600001,
        .verify 1 1777380600001, .commit 1]).map (fun w => decide w.acceptedIds.Nodup)
      = some false := by decide +kernel
  obtain ⟨w, hw, htwice⟩ := Option.map_eq_some_iff.mp hexec
  exact ⟨w, Machine.reach_of_exec hw, of_decide_eq_false htwice⟩

end Replay

end Incudal
