/-
# `ActionTickets` — tickets of a session and their revocation

A ticket is an entry of the shared state that is consumed once; a second entry
lists it under its session, and is written after it.  A revocation lists the
session, deletes the tickets that are listed, and clears the list.

A revocation that comes between the two entries of a ticket does not see it
(`ticket_outlives_revocation`); nor does one after another has cleared an entry
that it had not listed.  Where neither happens, and no call that matters fails, a
ticket is taken once, in time and for what it is, and none that was begun before a
revocation after it (`action_tickets_safe`).
-/
import Incudal.OAuthTokens
import Incudal.SharedState
import Incudal.Lib.Precedes
import Mathlib

namespace Incudal

open Json (JsChar Value)

/-! ## The shared state -/

/-- Whether `getRedis` gives a client. -/
inductive SharedBackend
  | memory | redis
deriving DecidableEq, Repr

namespace SharedBackend

/-- An entry that has not expired. -/
def live : SharedBackend → Time → MemoryEntry → Bool
  | .memory, now, entry => decide (now ≤ entry.expiresAt)
  | .redis, now, entry => decide (now < entry.expiresAt)

/-- A call that does nothing, since Redis cannot be reached. -/
def misses (fails : Bool) : SharedBackend → Bool
  | .memory => false
  | .redis => fails

section

variable (backend : SharedBackend) (fails : Bool) (store : MemoryStore) (now : Time)

def sharedSet (key value : Text) (ttlMs : ℤ) : MemoryStore :=
  if backend.misses fails then store
  else
    match backend with
    | .memory => memSet store now key value ttlMs
    | .redis => store.put { key, value, expiresAt := now + ttlMs }

def sharedDel (key : Text) : MemoryStore :=
  if backend.misses fails then store else Keyed.erase MemoryEntry.key key store

def sharedDelPrefix (start : Text) : MemoryStore :=
  if backend.misses fails then store else Incudal.sharedDelPrefix store start

def sharedListKeys (start : Text) : List Text :=
  if backend.misses fails then []
  else
    match backend with
    | .memory => Incudal.sharedListKeys store start
    | .redis => Incudal.sharedListKeys (store.filter (backend.live now)) start

def sharedConsume (key : Text) : MemoryStore × Option Text :=
  if backend.misses fails then (store, none)
  else
    match backend with
    | .memory => Incudal.sharedConsume store now key
    | .redis =>
        (Keyed.erase MemoryEntry.key key store,
          ((Keyed.lookup MemoryEntry.key key store).filter (backend.live now)).map (·.value))

end

end SharedBackend

/-! ## Tickets -/

/-- A character of base64url. -/
def isBase64UrlChar (c : Char) : Bool := c.isAlphanum || c == '-' || c == '_'

/-- The first characters of a refresh token. -/
structure SessionId where
  value : String
  ne : value ≠ ""
  chars : ∀ c ∈ value.toList, isBase64UrlChar c = true
deriving DecidableEq

/-- `ActionTicketType`; a ticket for a terminal is for an instance. -/
inductive ActionTicketKind
  | oauthBind
  | terminal (instanceId : ℕ)
deriving DecidableEq, Repr

def ActionTicketKind.name : ActionTicketKind → String
  | .oauthBind => "oauth-bind"
  | .terminal _ => "terminal"

structure ActionTicket where
  kind : ActionTicketKind
  userId : ℕ
  issuedAt : ℕ
  sessionId : Option SessionId
  expiresAt : ℕ
  createdAt : ℕ
deriving DecidableEq

def TICKET_TTL_MS : ActionTicketKind → ℕ
  | .oauthBind => 60 * 1000
  | .terminal _ => 60 * 1000

def TICKET_KEY_PREFIX : Text := text "action-ticket:"

def TICKET_SESSION_INDEX_PREFIX : Text := text "action-ticket-session:"

def ticketKey (token : Text) : Text := TICKET_KEY_PREFIX ++ token

def indexPrefix (session : SessionId) : Text :=
  TICKET_SESSION_INDEX_PREFIX ++ text session.value ++ text ":"

def indexKey (session : SessionId) (token : Text) : Text := indexPrefix session ++ token

namespace ActionTicket

/-- The members, an undefined one left out. -/
def fields (ticket : ActionTicket) : List (String × JsonField) :=
  [("type", .text ticket.kind.name), ("userId", .number ticket.userId)] ++
    (match ticket.kind with
      | .oauthBind => []
      | .terminal instanceId => [("instanceId", .number instanceId)]) ++
    [("issuedAt", .number ticket.issuedAt)] ++
    (ticket.sessionId.map fun session => ("sessionId", JsonField.text session.value)).toList ++
    [("expiresAt", .number ticket.expiresAt), ("createdAt", .number ticket.createdAt)]

/-- `JSON.stringify`. -/
def stringify (ticket : ActionTicket) : Text := (stringifyFields ticket.fields).map .char

end ActionTicket

/-- A property that is a natural number. -/
def naturalProperty (name : String) (value : Value) : Option ℕ :=
  match property name value with
  | some (.number literal) => naturalOf literal
  | _ => none

/-- The characters of a text that has no lone surrogate. -/
def Text.chars? (s : Text) : Option (List Char) :=
  s.mapM fun
    | .char c => some c
    | .lone _ => none

def SessionId.ofText? (s : Text) : Option SessionId := do
  let chars ← s.chars?
  if h : String.ofList chars ≠ "" ∧ (String.ofList chars).toList.all isBase64UrlChar = true then
    some ⟨String.ofList chars, h.1, List.all_eq_true.mp h.2⟩
  else none

def sessionProperty (value : Value) : Option (Option SessionId) :=
  match property "sessionId" value with
  | some (.string s) => (SessionId.ofText? s).map some
  | _ => some none

def kindProperty (value : Value) : Option ActionTicketKind :=
  match property "type" value with
  | some (.string s) =>
      if s = jsText "oauth-bind" then some .oauthBind
      else if s = jsText "terminal" then
        (naturalProperty "instanceId" value).map ActionTicketKind.terminal
      else none
  | _ => none

/-- What is read of a parsed ticket; all that is stored under the key of a ticket is one. -/
def ActionTicket.ofValue? (value : Value) : Option ActionTicket := do
  let kind ← kindProperty value
  let userId ← naturalProperty "userId" value
  let issuedAt ← naturalProperty "issuedAt" value
  let sessionId ← sessionProperty value
  let expiresAt ← naturalProperty "expiresAt" value
  let createdAt ← naturalProperty "createdAt" value
  return { kind, userId, issuedAt, sessionId, expiresAt, createdAt }

/-- `JSON.parse`. -/
def ActionTicket.parse (raw : Text) : Option ActionTicket := do
  let chars ← raw.chars?
  let value ← Json.parse chars
  ActionTicket.ofValue? value

/-! ## Consumption -/

section Consume

variable (backend : SharedBackend) (fails : Bool) (store : MemoryStore) (now checkedAt : ℕ)

/-- `consumeTicket`: the ticket is removed at one time and checked at another. -/
def consumeTicket (token : Text) : MemoryStore × Except String ActionTicket :=
  match backend.sharedConsume fails store now (ticketKey token) with
  | (store, none) | (store, some []) => (store, .error "Ticket not found or already used")
  | (store, some raw) =>
      match ActionTicket.parse raw with
      | none => (store, .error "Ticket corrupted")
      | some ticket =>
          if ticket.expiresAt < checkedAt then (store, .error "Ticket expired")
          else (store, .ok ticket)

/-- `OAuthBindTicketConsumeResult` and `TerminalTicketConsumeResult`, of a valid ticket. -/
structure TicketConsumeResult where
  userId : ℕ
  issuedAt : ℕ
  sessionId : Option SessionId
  instanceId : Option ℕ
deriving DecidableEq

def consumeOAuthBindTicket (token : Text) : MemoryStore × Except String TicketConsumeResult :=
  match consumeTicket backend fails store now checkedAt token with
  | (store, .error error) => (store, .error error)
  | (store, .ok ticket) =>
      match ticket.kind with
      | .oauthBind => (store, .ok ⟨ticket.userId, ticket.issuedAt, ticket.sessionId, none⟩)
      | .terminal _ => (store, .error "Ticket not found or already used")

def consumeTerminalAccessTicket (token : Text) (expectedInstanceId : Option ℕ) :
    MemoryStore × Except String TicketConsumeResult :=
  match consumeTicket backend fails store now checkedAt token with
  | (store, .error error) => (store, .error error)
  | (store, .ok ticket) =>
      match ticket.kind with
      | .oauthBind => (store, .error "Ticket not found or already used")
      | .terminal instanceId =>
          if expectedInstanceId.any (fun expected => decide (instanceId ≠ expected)) then
            (store, .error "Instance mismatch")
          else (store, .ok ⟨ticket.userId, ticket.issuedAt, ticket.sessionId, some instanceId⟩)

end Consume

/-! ## Calls -/

/-- Before the first write, before the second, and at the end. -/
inductive CreationStage
  | writing | indexing | issued
deriving DecidableEq, Repr

/-- A call of `createTicket`. -/
structure TicketCreation where
  token : Text
  ticket : ActionTicket
  ttlMs : ℤ
  stage : CreationStage
deriving DecidableEq

/-- Before the list, with keys that are still to be deleted, and at the end. -/
inductive RevocationStage
  | listing
  | deleting (indexKeys todo : List Text)
  | revoked (count : ℕ)
deriving DecidableEq, Repr

/-- A call of `revokeActionTicketsForSession`, and how many creations had begun before it. -/
structure TicketRevocation where
  session : SessionId
  begun : ℕ
  stage : RevocationStage
deriving DecidableEq

inductive TicketConsumer
  | oauthBind
  | terminal (expectedInstanceId : Option ℕ)
deriving DecidableEq, Repr

structure AcceptedTicket where
  token : Text
  consumer : TicketConsumer
  checkedAt : ℕ
deriving DecidableEq

/-- The shared state, the calls in the order of their beginning, and what has been accepted. -/
structure TicketWorld where
  store : MemoryStore := []
  clock : ℕ := 0
  creations : List TicketCreation := []
  revocations : List TicketRevocation := []
  accepted : List AcceptedTicket := []

inductive TicketEvent
  /-- a creation begins: its token, and when the time that is left is computed -/
  | generate (kind : ActionTicketKind) (userId issuedAt : ℕ) (sessionId : Option SessionId)
      (token : Text) (now : ℕ)
  | writeTicket (token : Text) (fails : Bool)
  | writeIndex (token : Text) (fails : Bool)
  | consume (consumer : TicketConsumer) (token : Text) (checkedAt : ℕ) (fails : Bool)
  | revoke (sessionId : SessionId)
  | listKeys (j : ℕ) (fails : Bool)
  | delete (j : ℕ) (fails : Bool)
  | clear (j : ℕ) (fails : Bool)
  | tick (now : ℕ)
deriving DecidableEq

section Step

variable (backend : SharedBackend)

def TicketWorld.setStage (w : TicketWorld) (token : Text) (stage : CreationStage) : TicketWorld :=
  { w with creations := Keyed.modify TicketCreation.token token ({ · with stage }) w.creations }

def TicketWorld.setRevocation (w : TicketWorld) (j : ℕ) (revocation : TicketRevocation)
    (stage : RevocationStage) : TicketWorld :=
  { w with revocations := w.revocations.set j { revocation with stage } }

/-- The outcome of a consumption, by either function. -/
def consumption (store : MemoryStore) (now checkedAt : ℕ) (token : Text) (fails : Bool) :
    TicketConsumer → MemoryStore × Except String TicketConsumeResult
  | .oauthBind => consumeOAuthBindTicket backend fails store now checkedAt token
  | .terminal expected =>
      consumeTerminalAccessTicket backend fails store now checkedAt token expected

/-- A step of a call up to its next one of the shared state; `nanoid` draws no token twice. -/
def ticketStep (w : TicketWorld) : TicketEvent → Option TicketWorld
  | .generate kind userId issuedAt sessionId token now =>
      if w.clock ≤ now ∧ ∀ c ∈ w.creations, c.token ≠ token then
        let expiresAt := w.clock + TICKET_TTL_MS kind
        let ticket := { kind, userId, issuedAt, sessionId, expiresAt, createdAt := w.clock }
        some { w with
          clock := now
          creations := w.creations ++
            [{ token, ticket, ttlMs := max ((expiresAt : ℤ) - now) 1, stage := .writing }] }
      else none
  | .writeTicket token fails =>
      match Keyed.lookup TicketCreation.token token w.creations with
      | some { ticket, ttlMs, stage := .writing, .. } =>
          some { w.setStage token (if ticket.sessionId.isSome then .indexing else .issued) with
            store := backend.sharedSet fails w.store w.clock (ticketKey token) ticket.stringify
              ttlMs }
      | _ => none
  | .writeIndex token fails =>
      match Keyed.lookup TicketCreation.token token w.creations with
      | some { ticket := { sessionId := some session, .. }, ttlMs, stage := .indexing, .. } =>
          some { w.setStage token .issued with
            store := backend.sharedSet fails w.store w.clock (indexKey session token) (text "1")
              ttlMs }
      | _ => none
  | .consume consumer token checkedAt fails =>
      if w.clock ≤ checkedAt then
        match consumption backend w.store w.clock checkedAt token fails consumer with
        | (store, .error _) => some { w with store }
        | (store, .ok _) =>
            some { w with store, accepted := w.accepted ++ [⟨token, consumer, checkedAt⟩] }
      else none
  | .revoke sessionId =>
      some { w with
        revocations := w.revocations ++ [⟨sessionId, w.creations.length, .listing⟩] }
  | .listKeys j fails =>
      match w.revocations[j]? with
      | some revocation@{ session, stage := .listing, .. } =>
          let indexKeys := backend.sharedListKeys fails w.store w.clock (indexPrefix session)
          some (w.setRevocation j revocation (.deleting indexKeys indexKeys))
      | _ => none
  | .delete j fails =>
      match w.revocations[j]? with
      | some revocation@{ session, stage := .deleting indexKeys (indexKey :: todo), .. } =>
          let token := indexKey.drop (indexPrefix session).length
          some { w.setRevocation j revocation (.deleting indexKeys todo) with
            store := backend.sharedDel fails w.store (ticketKey token) }
      | _ => none
  | .clear j fails =>
      match w.revocations[j]? with
      | some revocation@{ session, stage := .deleting indexKeys [], .. } =>
          some { w.setRevocation j revocation (.revoked indexKeys.length) with
            store := backend.sharedDelPrefix fails w.store (indexPrefix session) }
      | _ => none
  | .tick now => if w.clock ≤ now then some { w with clock := now } else none

end Step

/-! ## What is promised, and when it is kept -/

/-- The consumer is for tickets of this kind. -/
def TicketConsumer.Takes : TicketConsumer → ActionTicketKind → Prop
  | .oauthBind, kind => kind = .oauthBind
  | .terminal none, kind => ∃ instanceId, kind = .terminal instanceId
  | .terminal (some expected), kind => kind = .terminal expected

/-- Tickets are accepted once, in time and for what they are, and no longer once their session has
been revoked by a call that they were begun before. -/
structure TicketsSafe (backend : SharedBackend) (w : TicketWorld) : Prop where
  once : (w.accepted.map AcceptedTicket.token).Nodup
  own : ∀ a ∈ w.accepted, ∃ c ∈ w.creations, c.token = a.token ∧ a.consumer.Takes c.ticket.kind ∧
    a.checkedAt ≤ c.ticket.expiresAt
  revoked : ∀ r ∈ w.revocations, ∀ count, r.stage = .revoked count →
    ∀ c ∈ w.creations.take r.begun, c.ticket.sessionId = some r.session →
      ∀ consumer checkedAt fails, w.clock ≤ checkedAt → ∀ result,
        (consumption backend w.store w.clock checkedAt c.token fails consumer).2 ≠ .ok result

/-- An index key is written, listed and deleted where it should be; a revocation lists when no
creation that began before it is before its index key, and clears no index key of a ticket that is
there. -/
def revocationsSeeTickets (backend : SharedBackend) (w : TicketWorld) : TicketEvent → Bool
  | .writeIndex _ fails | .delete _ fails => !backend.misses fails
  | .listKeys j fails =>
      !backend.misses fails &&
      match w.revocations[j]? with
      | some r => (w.creations.take r.begun).all fun c =>
          decide (c.ticket.sessionId ≠ some r.session) || decide (c.stage = .issued)
      | none => true
  | .clear j fails =>
      backend.misses fails ||
      match w.revocations[j]? with
      | some r => w.creations.all fun c =>
          decide (c.ticket.sessionId ≠ some r.session) ||
            !(w.store.any fun e => e.key == indexKey r.session c.token) ||
            !(w.store.any fun e => e.key == ticketKey c.token)
      | none => true
  | _ => true

/-! ## What is stored is read back -/

section Codec

variable {ticket : ActionTicket} {name : String} {n : ℕ}

theorem chars?_map_char (chars : List Char) : Text.chars? (chars.map .char) = some chars := by
  induction chars with
  | nil => rfl
  | cons c chars ih =>
      simp only [Text.chars?] at ih ⊢
      simp [ih]

theorem SessionId.ofText?_value (session : SessionId) :
    SessionId.ofText? (jsText session.value) = some session := by
  have hsession : session.value ≠ "" ∧ session.value.toList.all isBase64UrlChar = true :=
    ⟨session.ne, List.all_eq_true.mpr session.chars⟩
  simp only [SessionId.ofText?, jsText, chars?_map_char, Option.bind_eq_bind, Option.bind_some,
    String.ofList_toList]
  exact dif_pos hsession

namespace ActionTicket

/-- The object that a ticket is written as. -/
def value (ticket : ActionTicket) : Value :=
  .object (ticket.fields.map fun f => (jsText f.1, f.2.value))

theorem nodup_fields (ticket : ActionTicket) : (ticket.fields.map Prod.fst).Nodup := by
  obtain ⟨kind, userId, issuedAt, sessionId, expiresAt, createdAt⟩ := ticket
  cases kind <;> cases sessionId <;> simp [fields]

theorem naturalProperty_value (h : (name, JsonField.number n) ∈ ticket.fields) :
    naturalProperty name ticket.value = some n := by
  have hproperty : property name ticket.value = some (.number (Nat.toDigits 10 n)) :=
    property_fields ticket.nodup_fields h
  rw [naturalProperty, hproperty]
  exact naturalOf_toDigits n

theorem sessionProperty_value (ticket : ActionTicket) :
    sessionProperty ticket.value = some ticket.sessionId := by
  cases hsession : ticket.sessionId with
  | none =>
      have hnot : ∀ f ∈ ticket.fields, f.1 ≠ "sessionId" := by
        obtain ⟨kind, userId, issuedAt, sessionId, expiresAt, createdAt⟩ := ticket
        obtain rfl : sessionId = none := hsession
        cases kind <;> simp [fields]
      have hproperty : property "sessionId" ticket.value = none := by
        simp only [property, value, Option.map_eq_none_iff, List.find?_eq_none, List.mem_map]
        rintro - ⟨f, hf, rfl⟩ heq
        exact hnot f hf (jsText_injective (by simpa using heq))
      rw [sessionProperty, hproperty]
  | some session =>
      have hmem : ("sessionId", JsonField.text session.value) ∈ ticket.fields := by
        simp [fields, hsession]
      have hproperty : property "sessionId" ticket.value = some (.string (jsText session.value)) :=
        property_fields ticket.nodup_fields hmem
      simp only [sessionProperty, hproperty, SessionId.ofText?_value, Option.map_some]

theorem kindProperty_value (ticket : ActionTicket) :
    kindProperty ticket.value = some ticket.kind := by
  have hproperty : property "type" ticket.value = some (.string (jsText ticket.kind.name)) := by
    have hmem : ("type", JsonField.text ticket.kind.name) ∈ ticket.fields := by simp [fields]
    exact property_fields ticket.nodup_fields hmem
  have hne : jsText "terminal" ≠ jsText "oauth-bind" := by decide
  cases hkind : ticket.kind with
  | oauthBind => simp only [kindProperty, hproperty, hkind, ActionTicketKind.name, if_true]
  | terminal instanceId =>
      have hinstance : naturalProperty "instanceId" ticket.value = some instanceId :=
        naturalProperty_value (by simp [fields, hkind])
      simp only [kindProperty, hproperty, hkind, ActionTicketKind.name, if_neg hne, if_true,
        hinstance, Option.map_some]

/-- What is parsed is the ticket that was written. -/
theorem parse_stringify (ticket : ActionTicket) : parse ticket.stringify = some ticket := by
  have hparse : Json.parse (stringifyFields ticket.fields) = some ticket.value :=
    parse_stringifyFields ticket.nodup_fields
  have huser : naturalProperty "userId" ticket.value = some ticket.userId :=
    naturalProperty_value (by simp [fields])
  have hissued : naturalProperty "issuedAt" ticket.value = some ticket.issuedAt :=
    naturalProperty_value (by simp [fields])
  have hexpires : naturalProperty "expiresAt" ticket.value = some ticket.expiresAt :=
    naturalProperty_value (by simp [fields])
  have hcreated : naturalProperty "createdAt" ticket.value = some ticket.createdAt :=
    naturalProperty_value (by simp [fields])
  simp only [parse, stringify, chars?_map_char, Option.bind_eq_bind, Option.bind_some, hparse,
    ofValue?, kindProperty_value, huser, hissued, sessionProperty_value, hexpires, hcreated]
  rfl

end ActionTicket

end Codec

/-! ## Keys -/

section Keys

variable {token token' : Text} {session session' : SessionId}

theorem units_append (s t : Text) : Text.units (s ++ t) = s.units ++ t.units :=
  List.flatMap_append

theorem base64Url_lt {c : Char} (hc : isBase64UrlChar c = true) : c.toNat < 0x10000 ∧ c ≠ ':' := by
  refine ⟨?_, ?_⟩
  · simp only [isBase64UrlChar, Char.isAlphanum, Char.isAlpha, Char.isUpper, Char.isLower,
      Char.isDigit, Bool.or_eq_true, Bool.and_eq_true, decide_eq_true_eq, beq_iff_eq,
      UInt32.le_iff_toNat_le, ge_iff_le] at hc
    have hval : c.val.toNat = c.toNat := rfl
    have hZ : 'Z'.val.toNat = 90 := rfl
    have hz : 'z'.val.toNat = 122 := rfl
    have hnine : '9'.val.toNat = 57 := rfl
    rcases hc with (hc | rfl) | rfl
    · omega
    · decide
    · decide
  · rintro rfl
    cases hc

theorem units_session (session : SessionId) :
    (text session.value).units = session.value.toList.map Char.toNat := by
  have hchars := session.chars
  unfold text
  generalize session.value.toList = chars at hchars ⊢
  induction chars with
  | nil => rfl
  | cons c chars ih =>
      obtain ⟨hc, hchars⟩ := List.forall_mem_cons.mp hchars
      have hone : Text.units [.char c] = [c.toNat] := by
        simp [Text.units, (base64Url_lt hc).1]
      rw [List.map_cons, List.map_cons, ← List.singleton_append, units_append, ih hchars, hone]
      rfl

theorem colon_not_mem (session : SessionId) : 58 ∉ session.value.toList.map Char.toNat := by
  intro hmem
  obtain ⟨c, hc, hcode⟩ := List.mem_map.mp hmem
  refine (base64Url_lt (session.chars c hc)).2 ?_
  rw [← Char.ofNat_toNat c, hcode]

theorem units_indexKey : (indexKey session token).units = TICKET_SESSION_INDEX_PREFIX.units ++
    (session.value.toList.map Char.toNat ++ 58 :: token.units) := by
  simp only [indexKey, indexPrefix, units_append, units_session, List.append_assoc]
  rfl

/-- The list of a session has the keys of its own tickets. -/
theorem startsWith_indexKey :
    (indexKey session' token).startsWith (indexPrefix session) = true ↔ session' = session := by
  have hself : indexPrefix session = indexKey session [] := (List.append_nil _).symm
  rw [Text.startsWith, decide_eq_true_eq, hself, units_indexKey, units_indexKey,
    List.prefix_append_right_inj]
  constructor
  · rintro ⟨rest, hrest⟩
    rw [List.append_assoc, List.cons_append] at hrest
    have hvalues :=
      ((Delimited.append_cons_inj (colon_not_mem session) (colon_not_mem session')).mp hrest).1
    have hinj : Function.Injective Char.toNat := fun c d h => by
      rw [← Char.ofNat_toNat c, h, Char.ofNat_toNat]
    have hvalue := String.toList_injective (hinj.list_map hvalues)
    cases session
    cases session'
    cases hvalue
    rfl
  · rintro rfl
    exact (List.prefix_append_right_inj _).mpr (List.cons_prefix_cons.mpr ⟨rfl, List.nil_prefix⟩)

/-- But not the tickets themselves. -/
theorem startsWith_ticketKey : (ticketKey token).startsWith (indexPrefix session) = false := by
  rw [Text.startsWith, decide_eq_false_iff_not]
  rintro ⟨rest, hrest⟩
  have hself : indexPrefix session = indexKey session [] := (List.append_nil _).symm
  rw [hself, units_indexKey, ticketKey, units_append, List.append_assoc] at hrest
  have hchar := congrArg (fun units => units[13]?) hrest
  rw [List.getElem?_append_left (by decide), List.getElem?_append_left (by decide)] at hchar
  revert hchar
  decide

theorem ticketKey_ne_indexKey : ticketKey token ≠ indexKey session token' := by
  intro h
  have hstart : (indexKey session token').startsWith (indexPrefix session) = true :=
    startsWith_indexKey.mpr rfl
  rw [← h, startsWith_ticketKey] at hstart
  cases hstart

theorem ticketKey_inj : ticketKey token = ticketKey token' ↔ token = token' :=
  List.append_right_inj _

theorem indexKey_inj :
    indexKey session token = indexKey session' token' ↔ session = session' ∧ token = token' := by
  constructor
  · intro h
    have hstart : (indexKey session token).startsWith (indexPrefix session) = true :=
      startsWith_indexKey.mpr rfl
    rw [h] at hstart
    obtain rfl := startsWith_indexKey.mp hstart
    exact ⟨rfl, List.append_cancel_left h⟩
  · rintro ⟨rfl, rfl⟩
    rfl

end Keys

/-! ## The shared state under its calls -/

section Store

variable {backend : SharedBackend} {fails : Bool} {store store' : MemoryStore} {now : Time}
  {key value start : Text} {ttlMs : ℤ} {e x : MemoryEntry}

/-- What is left, in which an entry stays before another that does not expire earlier. -/
structure KeepsPairs (store store' : MemoryStore) : Prop where
  sublist : store'.Sublist store
  pair : ∀ e x, Precedes e x store → e ∈ store' → e.expiresAt ≤ x.expiresAt → Precedes e x store'

theorem KeepsPairs.refl (store : MemoryStore) : KeepsPairs store store :=
  ⟨.refl _, fun _ _ h _ _ => h⟩

/-- The loop tests the entries up to one that it stops at. -/
theorem dropExpired_split (now : Time) (size : ℕ) (store : MemoryStore) :
    ∃ front back, store = front ++ back ∧
      dropExpired now size store = front.filter (SharedBackend.memory.live now) ++ back := by
  induction store generalizing size with
  | nil => exact ⟨[], [], rfl, rfl⟩
  | cons entry entries ih =>
      simp only [dropExpired]
      split
      · rename_i hexpired
        have hdead : ¬SharedBackend.memory.live now entry = true := by
          simpa [SharedBackend.live] using hexpired
        split
        · refine ⟨[entry], entries, rfl, ?_⟩
          rw [List.filter_cons_of_neg hdead]
          rfl
        · obtain ⟨front, back, hsplit, hdrop⟩ := ih (size - 1)
          refine ⟨entry :: front, back, by rw [hsplit]; rfl, ?_⟩
          rw [List.filter_cons_of_neg hdead, hdrop]
      · rename_i hunexpired
        have hlive : SharedBackend.memory.live now entry = true := by
          simpa [SharedBackend.live] using hunexpired
        split
        · exact ⟨[], entry :: entries, rfl, rfl⟩
        · obtain ⟨front, back, hsplit, hdrop⟩ := ih size
          refine ⟨entry :: front, back, by rw [hsplit]; rfl, ?_⟩
          rw [List.filter_cons_of_pos hlive, hdrop]
          rfl

/-- Expired entries go, and then the oldest. -/
theorem makeRoom_keepsPairs (hn : store.Nodup) : KeepsPairs store (makeRoom store now) := by
  refine ⟨makeRoom_sublist, fun e x h he hle => ?_⟩
  unfold makeRoom at he ⊢
  split
  · exact h
  · rename_i hfull
    rw [if_neg hfull] at he
    obtain ⟨front, back, hsplit, hdrop⟩ := dropExpired_split now store.length store
    have hnodup : (dropExpired now store.length store).Nodup :=
      hn.sublist (dropExpired_sublist _)
    refine Precedes.drop ?_ hnodup he
    have hmem := List.mem_of_mem_drop he
    rw [hdrop] at hmem ⊢
    refine Precedes.filter_append (hsplit ▸ h) (hsplit ▸ hn) hmem fun hlive => ?_
    exact decide_eq_true ((of_decide_eq_true hlive).trans hle)

/-- A key that is not there comes last, behind what is left of the others. -/
theorem sharedSet_cases (hn : store.Nodup) (hfresh : ∀ e ∈ store, e.key ≠ key) :
    backend.misses fails = true ∧ backend.sharedSet fails store now key value ttlMs = store ∨
      ∃ room, KeepsPairs store room ∧ backend.sharedSet fails store now key value ttlMs =
        room ++ [{ key, value, expiresAt := now + ttlMs }] := by
  have hput : ∀ room : MemoryStore, room.Sublist store →
      room.put { key, value, expiresAt := now + ttlMs } =
        room ++ [{ key, value, expiresAt := now + ttlMs }] := by
    intro room hsub
    have hnone : Keyed.lookup MemoryEntry.key key room = none :=
      Keyed.lookup_eq_none_iff.mpr fun e he => hfresh e (hsub.subset he)
    rw [MemoryStore.put, hnone]
    rfl
  unfold SharedBackend.sharedSet
  split
  · exact .inl ⟨‹_›, rfl⟩
  · cases backend with
    | memory => exact .inr ⟨_, makeRoom_keepsPairs hn, hput _ makeRoom_sublist⟩
    | redis => exact .inr ⟨_, .refl store, hput _ (.refl _)⟩

/-- A live key of a session is listed. -/
theorem mem_sharedListKeys (hok : backend.misses fails = false) (hx : x ∈ store)
    (hlive : backend.live now x = true) (hstart : x.key.startsWith start = true) :
    x.key ∈ backend.sharedListKeys fails store now start := by
  have hlist : ∀ {entries : MemoryStore}, x ∈ entries →
      x.key ∈ sharedListKeys entries start := fun hmem =>
    List.mem_filter.mpr ⟨List.mem_map_of_mem hmem, hstart⟩
  unfold SharedBackend.sharedListKeys
  rw [if_neg (by simp [hok])]
  cases backend with
  | memory => exact hlist hx
  | redis => exact hlist (List.mem_filter.mpr ⟨hx, hlive⟩)

/-- A live entry is what is consumed, and an entry without a value is at most dropped. -/
theorem sharedConsume_spec (backend : SharedBackend) (fails : Bool) (store : MemoryStore)
    (now : Time) (key : Text) :
    (∃ e, Keyed.lookup MemoryEntry.key key store = some e ∧ backend.live now e = true ∧
      backend.sharedConsume fails store now key =
        (Keyed.erase MemoryEntry.key key store, some e.value)) ∨
    (backend.sharedConsume fails store now key).2 = none ∧
      ((backend.sharedConsume fails store now key).1 = store ∨
        (backend.sharedConsume fails store now key).1 = Keyed.erase MemoryEntry.key key store) := by
  unfold SharedBackend.sharedConsume
  split
  · exact .inr ⟨rfl, .inl rfl⟩
  · cases backend with
    | memory =>
        unfold sharedConsume
        rcases memGet_cases store now key with ⟨-, hget⟩ | ⟨e, -, -, hget⟩ | ⟨e, he, hlive, hget⟩
        · simp [hget]
        · simp [hget]
        · refine .inl ⟨e, he, decide_eq_true (not_lt.mp hlive), ?_⟩
          simp [hget]
    | redis =>
        cases he : Keyed.lookup MemoryEntry.key key store with
        | none => exact .inr ⟨rfl, .inr rfl⟩
        | some e =>
            by_cases hlive : SharedBackend.redis.live now e = true
            · exact .inl ⟨e, rfl, hlive, by simp [hlive]⟩
            · exact .inr ⟨by simp [hlive], .inr rfl⟩

end Store

/-! ## One consumption -/

section Consumption

variable {backend : SharedBackend} {fails : Bool} {store store' : MemoryStore} {now checkedAt : ℕ}
  {token : Text} {consumer : TicketConsumer} {result : TicketConsumeResult}

theorem consumeTicket_ok {ticket : ActionTicket}
    (h : consumeTicket backend fails store now checkedAt token = (store', .ok ticket)) :
    ∃ e, Keyed.lookup MemoryEntry.key (ticketKey token) store = some e ∧
      backend.live now e = true ∧ ActionTicket.parse e.value = some ticket ∧
      checkedAt ≤ ticket.expiresAt ∧
      store' = Keyed.erase MemoryEntry.key (ticketKey token) store := by
  unfold consumeTicket at h
  rcases sharedConsume_spec backend fails store now (ticketKey token) with
    ⟨e, he, hlive, hconsume⟩ | ⟨hnone, -⟩
  · rw [hconsume] at h
    split at h
    · cases h
    · cases h
    · rename_i heq
      obtain ⟨rfl, hvalue⟩ := Prod.mk.inj heq
      obtain rfl := Option.some.inj hvalue
      split at h
      · cases h
      · rename_i hparse
        split at h
        · cases h
        · rename_i hfresh
          obtain ⟨rfl, hticket⟩ := Prod.mk.inj h
          obtain rfl := Except.ok.inj hticket
          exact ⟨e, he, hlive, hparse, not_lt.mp hfresh, rfl⟩
  · split at h
    · cases h
    · cases h
    · rename_i heq
      rw [heq] at hnone
      cases hnone

theorem consumeTicket_store (backend : SharedBackend) (fails : Bool) (store : MemoryStore)
    (now checkedAt : ℕ) (token : Text) :
    (consumeTicket backend fails store now checkedAt token).1 = store ∨
      (consumeTicket backend fails store now checkedAt token).1 =
        Keyed.erase MemoryEntry.key (ticketKey token) store := by
  have hfirst : (consumeTicket backend fails store now checkedAt token).1 =
      (backend.sharedConsume fails store now (ticketKey token)).1 := by
    unfold consumeTicket
    split
    · rename_i heq
      rw [heq]
    · rename_i heq
      rw [heq]
    · rename_i heq
      rw [heq]
      split
      · rfl
      · split <;> rfl
  rw [hfirst]
  rcases sharedConsume_spec backend fails store now (ticketKey token) with
    ⟨e, -, -, hconsume⟩ | ⟨-, hstore⟩
  · rw [hconsume]
    exact .inr rfl
  · exact hstore

theorem consumption_store (backend : SharedBackend) (fails : Bool) (store : MemoryStore)
    (now checkedAt : ℕ) (token : Text) (consumer : TicketConsumer) :
    (consumption backend store now checkedAt token fails consumer).1 = store ∨
      (consumption backend store now checkedAt token fails consumer).1 =
        Keyed.erase MemoryEntry.key (ticketKey token) store := by
  have hfirst : (consumption backend store now checkedAt token fails consumer).1 =
      (consumeTicket backend fails store now checkedAt token).1 := by
    cases consumer with
    | oauthBind =>
        show (consumeOAuthBindTicket _ _ _ _ _ _).1 = _
        unfold consumeOAuthBindTicket
        split
        · rename_i heq
          rw [heq]
        · rename_i heq
          rw [heq]
          split <;> rfl
    | terminal expected =>
        show (consumeTerminalAccessTicket _ _ _ _ _ _ _).1 = _
        unfold consumeTerminalAccessTicket
        split
        · rename_i heq
          rw [heq]
        · rename_i heq
          rw [heq]
          split
          · rfl
          · split <;> rfl
  rw [hfirst]
  exact consumeTicket_store _ _ _ _ _ _

/-- What is accepted was there, live, in time and of the kind that the consumer is for. -/
theorem consumption_ok
    (h : consumption backend store now checkedAt token fails consumer = (store', .ok result)) :
    ∃ e ticket, Keyed.lookup MemoryEntry.key (ticketKey token) store = some e ∧
      backend.live now e = true ∧ ActionTicket.parse e.value = some ticket ∧
      checkedAt ≤ ticket.expiresAt ∧ consumer.Takes ticket.kind ∧
      store' = Keyed.erase MemoryEntry.key (ticketKey token) store := by
  cases consumer with
  | oauthBind =>
      replace h : consumeOAuthBindTicket _ _ _ _ _ _ = _ := h
      unfold consumeOAuthBindTicket at h
      split at h
      · cases h
      · rename_i heq
        obtain ⟨e, he, hlive, hparse, htime, hstore⟩ := consumeTicket_ok heq
        split at h
        · rename_i hkind
          obtain ⟨rfl, -⟩ := Prod.mk.inj h
          exact ⟨e, _, he, hlive, hparse, htime, hkind, hstore⟩
        · cases h
  | terminal expected =>
      replace h : consumeTerminalAccessTicket _ _ _ _ _ _ _ = _ := h
      unfold consumeTerminalAccessTicket at h
      split at h
      · cases h
      · rename_i heq
        obtain ⟨e, he, hlive, hparse, htime, hstore⟩ := consumeTicket_ok heq
        split at h
        · cases h
        · rename_i instanceId hkind
          split at h
          · cases h
          · rename_i hexpected
            obtain ⟨rfl, -⟩ := Prod.mk.inj h
            refine ⟨e, _, he, hlive, hparse, htime, ?_, hstore⟩
            cases expected with
            | none => exact ⟨instanceId, hkind⟩
            | some expected =>
                obtain rfl : instanceId = expected := by simpa using hexpected
                exact hkind

end Consumption

/-! ## What a step can do -/

/-- The outcome of an event. -/
inductive TicketMove (backend : SharedBackend) (w : TicketWorld) : TicketEvent → TicketWorld → Prop
  | generate {kind : ActionTicketKind} {userId issuedAt now : ℕ} {sessionId : Option SessionId}
      {token : Text} (c : TicketCreation) : w.clock ≤ now → (∀ d ∈ w.creations, d.token ≠ token) →
      c.token = token → c.stage = .writing →
      TicketMove backend w (.generate kind userId issuedAt sessionId token now)
        { w with clock := now, creations := w.creations ++ [c] }
  | writeTicket {token : Text} {fails : Bool} {c : TicketCreation} :
      Keyed.lookup TicketCreation.token token w.creations = some c → c.stage = .writing →
      TicketMove backend w (.writeTicket token fails)
        { w.setStage token (if c.ticket.sessionId.isSome then .indexing else .issued) with
          store := backend.sharedSet fails w.store w.clock (ticketKey token) c.ticket.stringify
            c.ttlMs }
  | writeIndex {token : Text} {fails : Bool} {c : TicketCreation} {session : SessionId} :
      Keyed.lookup TicketCreation.token token w.creations = some c → c.stage = .indexing →
      c.ticket.sessionId = some session →
      TicketMove backend w (.writeIndex token fails)
        { w.setStage token .issued with
          store := backend.sharedSet fails w.store w.clock (indexKey session token) (text "1")
            c.ttlMs }
  | refuse {consumer : TicketConsumer} {token : Text} {checkedAt : ℕ} {fails : Bool}
      (store : MemoryStore) :
      (store = w.store ∨ store = Keyed.erase MemoryEntry.key (ticketKey token) w.store) →
      TicketMove backend w (.consume consumer token checkedAt fails) { w with store }
  | accept {consumer : TicketConsumer} {token : Text} {checkedAt : ℕ} {fails : Bool}
      {e : MemoryEntry} {ticket : ActionTicket} :
      Keyed.lookup MemoryEntry.key (ticketKey token) w.store = some e →
      ActionTicket.parse e.value = some ticket → checkedAt ≤ ticket.expiresAt →
      consumer.Takes ticket.kind →
      TicketMove backend w (.consume consumer token checkedAt fails)
        { w with
          store := Keyed.erase MemoryEntry.key (ticketKey token) w.store
          accepted := w.accepted ++ [⟨token, consumer, checkedAt⟩] }
  | revoke {sessionId : SessionId} : TicketMove backend w (.revoke sessionId)
      { w with revocations := w.revocations ++ [⟨sessionId, w.creations.length, .listing⟩] }
  | listKeys {j : ℕ} {fails : Bool} {r : TicketRevocation} {indexKeys : List Text} :
      w.revocations[j]? = some r → r.stage = .listing →
      indexKeys = backend.sharedListKeys fails w.store w.clock (indexPrefix r.session) →
      TicketMove backend w (.listKeys j fails) (w.setRevocation j r (.deleting indexKeys indexKeys))
  | delete {j : ℕ} {fails : Bool} {r : TicketRevocation} {indexKeys todo : List Text}
      {indexKey : Text} :
      w.revocations[j]? = some r → r.stage = .deleting indexKeys (indexKey :: todo) →
      TicketMove backend w (.delete j fails)
        { w.setRevocation j r (.deleting indexKeys todo) with
          store := backend.sharedDel fails w.store
            (ticketKey (indexKey.drop (indexPrefix r.session).length)) }
  | clear {j : ℕ} {fails : Bool} {r : TicketRevocation} {indexKeys : List Text} :
      w.revocations[j]? = some r → r.stage = .deleting indexKeys [] →
      TicketMove backend w (.clear j fails)
        { w.setRevocation j r (.revoked indexKeys.length) with
          store := backend.sharedDelPrefix fails w.store (indexPrefix r.session) }
  | tick {now : ℕ} : w.clock ≤ now → TicketMove backend w (.tick now) { w with clock := now }

theorem ticketStep_move {backend : SharedBackend} {w w' : TicketWorld} {event : TicketEvent}
    (h : ticketStep backend w event = some w') : TicketMove backend w event w' := by
  cases event with
  | generate kind userId issuedAt sessionId token now =>
      obtain ⟨⟨hclock, hfresh⟩, hw⟩ := Option.ite_none_right_eq_some.mp h
      obtain rfl := Option.some.inj hw
      exact .generate _ hclock hfresh rfl rfl
  | writeTicket token fails =>
      simp only [ticketStep] at h
      split at h
      · rename_i hc
        obtain rfl := Option.some.inj h
        have hmove := @TicketMove.writeTicket backend w token fails _ hc rfl
        exact hmove
      · cases h
  | writeIndex token fails =>
      simp only [ticketStep] at h
      split at h
      · rename_i hc
        obtain rfl := Option.some.inj h
        have hmove := @TicketMove.writeIndex backend w token fails _ _ hc rfl rfl
        exact hmove
      · cases h
  | consume consumer token checkedAt fails =>
      obtain ⟨hclock, hw⟩ := Option.ite_none_right_eq_some.mp h
      have hstore := consumption_store backend fails w.store w.clock checkedAt token consumer
      split at hw
      · rename_i heq
        rw [heq] at hstore
        obtain rfl := Option.some.inj hw
        exact .refuse _ hstore
      · rename_i heq
        obtain ⟨e, ticket, he, -, hparse, htime, htakes, rfl⟩ := consumption_ok heq
        obtain rfl := Option.some.inj hw
        exact .accept he hparse htime htakes
  | revoke sessionId =>
      obtain rfl := Option.some.inj h
      exact .revoke
  | listKeys j fails =>
      simp only [ticketStep] at h
      split at h
      · rename_i hr
        obtain rfl := Option.some.inj h
        have hmove := @TicketMove.listKeys backend w j fails _ _ hr rfl rfl
        exact hmove
      · cases h
  | delete j fails =>
      simp only [ticketStep] at h
      split at h
      · rename_i hr
        obtain rfl := Option.some.inj h
        have hmove := @TicketMove.delete backend w j fails _ _ _ _ hr rfl
        exact hmove
      · cases h
  | clear j fails =>
      simp only [ticketStep] at h
      split at h
      · rename_i hr
        obtain rfl := Option.some.inj h
        have hmove := @TicketMove.clear backend w j fails _ _ hr rfl
        exact hmove
      · cases h
  | tick now =>
      obtain ⟨hclock, hw⟩ := Option.ite_none_right_eq_some.mp h
      obtain rfl := Option.some.inj hw
      exact .tick hclock

/-! ## Acceptance -/

section Acceptance

variable {backend : SharedBackend} {w w' : TicketWorld} {event : TicketEvent}
  {store store' : MemoryStore} {cs cs' : List TicketCreation} {c d : TicketCreation}
  {clock clock' : ℕ} {token : Text} {stage : CreationStage} {e : MemoryEntry}

/-- The ticket of a creation that has written it, or an index key of one that is over. -/
def Backed (cs : List TicketCreation) (clock : ℕ) (e : MemoryEntry) : Prop :=
  (∃ c ∈ cs, c.stage ≠ .writing ∧ e.key = ticketKey c.token ∧ e.value = c.ticket.stringify ∧
    e.expiresAt ≤ clock + c.ttlMs) ∨
  ∃ c ∈ cs, ∃ session, c.stage = .issued ∧ c.ticket.sessionId = some session ∧
    e.key = indexKey session c.token

/-- An accepted ticket was written, for this consumer and this time. -/
def Vouched (cs : List TicketCreation) (a : AcceptedTicket) : Prop :=
  ∃ c ∈ cs, c.stage ≠ .writing ∧ c.token = a.token ∧ a.consumer.Takes c.ticket.kind ∧
    a.checkedAt ≤ c.ticket.expiresAt

structure TicketInv (w : TicketWorld) : Prop where
  keys : (w.store.map MemoryEntry.key).Nodup
  tokens : (w.creations.map TicketCreation.token).Nodup
  begun : ∀ r ∈ w.revocations, r.begun ≤ w.creations.length
  backed : ∀ e ∈ w.store, Backed w.creations w.clock e
  vouched : ∀ a ∈ w.accepted, Vouched w.creations a
  gone : ∀ a ∈ w.accepted, ∀ e ∈ w.store, e.key ≠ ticketKey a.token
  once : (w.accepted.map AcceptedTicket.token).Nodup

/-- Creations go on, and new ones begin. -/
def Continues (cs cs' : List TicketCreation) : Prop :=
  ∀ c ∈ cs, ∃ c' ∈ cs', c'.token = c.token ∧ c'.ticket = c.ticket ∧ c'.ttlMs = c.ttlMs ∧
    (c.stage ≠ .writing → c'.stage ≠ .writing) ∧ (c.stage = .issued → c'.stage = .issued)

theorem continues_append : Continues cs (cs ++ [d]) := fun c hc =>
  ⟨c, List.mem_append_left _ hc, rfl, rfl, rfl, id, id⟩

theorem continues_modify (hstage : stage ≠ .writing)
    (hissued : ∀ c ∈ cs, c.token = token → c.stage ≠ .issued) :
    Continues cs (Keyed.modify TicketCreation.token token ({ · with stage }) cs) := by
  intro c hc
  by_cases htoken : c.token = token
  · refine ⟨{ c with stage }, Keyed.mem_modify.mpr ⟨c, hc, by rw [if_pos htoken]⟩, rfl, rfl, rfl,
      fun _ => hstage, fun h => (hissued c hc htoken h).elim⟩
  · exact ⟨c, Keyed.mem_modify_of_ne hc htoken rfl, rfl, rfl, rfl, id, id⟩

theorem Backed.mono (h : Backed cs clock e) (hcs : Continues cs cs') (hclock : clock ≤ clock') :
    Backed cs' clock' e := by
  rcases h with ⟨c, hc, hstage, hkey, hvalue, hexpires⟩ | ⟨c, hc, session, hstage, hsession, hkey⟩
  · obtain ⟨c', hc', htoken, hticket, httl, hwritten, -⟩ := hcs c hc
    refine .inl ⟨c', hc', hwritten hstage, htoken ▸ hkey, hticket ▸ hvalue, ?_⟩
    rw [httl]
    exact hexpires.trans (Int.add_le_add_right (Int.ofNat_le.mpr hclock) _)
  · obtain ⟨c', hc', htoken, hticket, -, -, hissued⟩ := hcs c hc
    exact .inr ⟨c', hc', session, hissued hstage, hticket ▸ hsession, htoken ▸ hkey⟩

theorem Vouched.mono {a : AcceptedTicket} (h : Vouched cs a) (hcs : Continues cs cs') :
    Vouched cs' a := by
  obtain ⟨c, hc, hstage, htoken, htakes, htime⟩ := h
  obtain ⟨c', hc', htoken', hticket, -, hwritten, -⟩ := hcs c hc
  exact ⟨c', hc', hwritten hstage, htoken'.trans htoken, hticket ▸ htakes, hticket ▸ htime⟩

namespace TicketInv

theorem start : TicketInv {} where
  keys := List.nodup_nil
  tokens := List.nodup_nil
  begun := fun _ hr => by cases hr
  backed := fun _ he => by cases he
  vouched := fun _ ha => by cases ha
  gone := fun _ ha => by cases ha
  once := List.nodup_nil

theorem nodup (h : TicketInv w) : w.store.Nodup := .of_map _ h.keys

/-- A token has one creation. -/
theorem unique (h : TicketInv w) (hc : c ∈ w.creations) (hd : d ∈ w.creations)
    (htoken : c.token = d.token) : c = d := by
  have hlookup := Keyed.lookup_of_mem h.tokens hc
  rw [htoken, Keyed.lookup_of_mem h.tokens hd] at hlookup
  exact (Option.some.inj hlookup).symm

/-- A ticket is there only if its creation has written it. -/
theorem ticket_backed (h : TicketInv w) (he : e ∈ w.store) (hkey : e.key = ticketKey token) :
    ∃ c ∈ w.creations, c.token = token ∧ c.stage ≠ .writing ∧ e.value = c.ticket.stringify ∧
      e.expiresAt ≤ w.clock + c.ttlMs := by
  rcases h.backed e he with ⟨c, hc, hstage, hkey', hvalue, hexpires⟩ | ⟨c, -, session, -, -, hkey'⟩
  · exact ⟨c, hc, ticketKey_inj.mp (hkey'.symm.trans hkey), hstage, hvalue, hexpires⟩
  · exact (ticketKey_ne_indexKey (hkey.symm.trans hkey')).elim

/-- Less may be stored. -/
theorem shrink (h : TicketInv w) (hsub : store'.Sublist w.store) :
    TicketInv { w with store := store' } where
  keys := h.keys.sublist (hsub.map _)
  tokens := h.tokens
  begun := h.begun
  backed e he := h.backed e (hsub.subset he)
  vouched := h.vouched
  gone a ha e he := h.gone a ha e (hsub.subset he)
  once := h.once

/-- Creations may go on while the time does. -/
theorem advance (h : TicketInv w) (hcs : Continues w.creations cs')
    (hlength : w.creations.length ≤ cs'.length) (htokens : (cs'.map TicketCreation.token).Nodup)
    (hclock : w.clock ≤ clock') : TicketInv { w with creations := cs', clock := clock' } where
  keys := h.keys
  tokens := htokens
  begun r hr := (h.begun r hr).trans hlength
  backed e he := (h.backed e he).mono hcs hclock
  vouched a ha := (h.vouched a ha).mono hcs
  gone := h.gone
  once := h.once

theorem setStage (h : TicketInv w)
    (hc : Keyed.lookup TicketCreation.token token w.creations = some c)
    (hstage : stage ≠ .writing) (hissued : c.stage ≠ .issued) :
    TicketInv (w.setStage token stage) := by
  obtain ⟨hmem, htoken⟩ := Keyed.mem_of_lookup hc
  refine h.advance (continues_modify hstage fun d hd hd' => ?_) ?_ ?_ le_rfl
  · rwa [h.unique hd hmem (hd'.trans htoken.symm)]
  · exact (List.length_map _).ge
  · have htokens : (w.setStage token stage).creations.map TicketCreation.token =
        w.creations.map TicketCreation.token := Keyed.map_key_modify fun _ => rfl
    exact htokens ▸ h.tokens

/-- An entry that belongs to a creation and was not there may be added. -/
theorem insert (h : TicketInv w) (hsub : store'.Sublist w.store)
    (hfresh : ∀ d ∈ w.store, d.key ≠ e.key)
    (hbacked : Backed w.creations w.clock e) (hgone : ∀ a ∈ w.accepted, e.key ≠ ticketKey a.token) :
    TicketInv { w with store := store' ++ [e] } where
  keys := Keyed.nodup_append_singleton (h.keys.sublist (hsub.map _)) fun d hd =>
    hfresh d (hsub.subset hd)
  tokens := h.tokens
  begun := h.begun
  backed d hd := by
    rcases List.mem_append.mp hd with hd | hd
    · exact h.backed d (hsub.subset hd)
    · exact List.mem_singleton.mp hd ▸ hbacked
  vouched := h.vouched
  gone a ha d hd := by
    rcases List.mem_append.mp hd with hd | hd
    · exact h.gone a ha d (hsub.subset hd)
    · exact List.mem_singleton.mp hd ▸ hgone a ha
  once := h.once

/-- Revocations take their place and go on. -/
theorem revocations {revocations : List TicketRevocation} (h : TicketInv w)
    (hbegun : ∀ r ∈ revocations, r.begun ≤ w.creations.length) :
    TicketInv { w with revocations } :=
  ⟨h.keys, h.tokens, hbegun, h.backed, h.vouched, h.gone, h.once⟩

theorem setRevocation {j : ℕ} {r : TicketRevocation} {stage : RevocationStage} (h : TicketInv w)
    (hr : w.revocations[j]? = some r) : TicketInv (w.setRevocation j r stage) := by
  refine h.revocations fun r' hr' => ?_
  rcases List.mem_or_eq_of_mem_set hr' with hr' | rfl
  · exact h.begun r' hr'
  · exact h.begun r (List.mem_of_getElem? hr)

/-- Before its creation has written it a ticket is not there, nor has it been accepted. -/
theorem ticket_fresh (h : TicketInv w) (hc : c ∈ w.creations) (hstage : c.stage = .writing) :
    (∀ e ∈ w.store, e.key ≠ ticketKey c.token) ∧ ∀ a ∈ w.accepted, a.token ≠ c.token := by
  constructor
  · intro e he hkey
    obtain ⟨d, hd, htoken, hwritten, -⟩ := h.ticket_backed he hkey
    exact hwritten (h.unique hd hc htoken ▸ hstage)
  · intro a ha htoken
    obtain ⟨d, hd, hwritten, htoken', -⟩ := h.vouched a ha
    exact hwritten (h.unique hd hc (htoken'.trans htoken) ▸ hstage)

/-- An index key is not there before the end. -/
theorem index_fresh {session : SessionId} (h : TicketInv w) (hc : c ∈ w.creations)
    (hstage : c.stage ≠ .issued) : ∀ e ∈ w.store, e.key ≠ indexKey session c.token := by
  intro e he hkey
  rcases h.backed e he with ⟨d, -, -, hkey', -⟩ | ⟨d, hd, session', hissued, -, hkey'⟩
  · exact ticketKey_ne_indexKey (hkey'.symm.trans hkey)
  · have htoken := (indexKey_inj.mp (hkey'.symm.trans hkey)).2
    exact hstage (h.unique hd hc htoken ▸ hissued)

theorem step (h : TicketInv w) (hmove : TicketMove backend w event w') : TicketInv w' := by
  cases hmove with
  | generate c hclock hfresh htoken _ =>
      refine h.advance continues_append ?_ ?_ hclock
      · exact (List.length_append ▸ Nat.le_add_right _ _)
      · exact Keyed.nodup_append_singleton h.tokens fun d hd => htoken ▸ hfresh d hd
  | @writeTicket token fails c hc hstage =>
      obtain ⟨hmem, htoken⟩ := Keyed.mem_of_lookup hc
      obtain ⟨hfresh, hnew⟩ := h.ticket_fresh hmem hstage
      rw [htoken] at hfresh hnew
      have hnext : (if c.ticket.sessionId.isSome then CreationStage.indexing else .issued) ≠
          .writing := by
        split <;> exact CreationStage.noConfusion
      have hset := h.setStage hc hnext (hstage ▸ CreationStage.noConfusion)
      rcases sharedSet_cases h.nodup hfresh with ⟨-, hsame⟩ | ⟨room, hroom, hsame⟩
      · rw [hsame]
        exact hset
      · rw [hsame]
        refine hset.insert hroom.sublist hfresh (.inl ⟨_, Keyed.mem_modify.mpr ⟨c, hmem, rfl⟩, ?_⟩)
          fun a ha heq => hnew a ha (ticketKey_inj.mp heq).symm
        rw [if_pos htoken]
        exact ⟨hnext, by rw [htoken], rfl, le_rfl⟩
  | @writeIndex token fails c session hc hstage hsession =>
      obtain ⟨hmem, htoken⟩ := Keyed.mem_of_lookup hc
      have hunissued : c.stage ≠ .issued := hstage ▸ CreationStage.noConfusion
      have hfresh : ∀ e ∈ w.store, e.key ≠ indexKey session token :=
        htoken ▸ h.index_fresh hmem hunissued
      have hset : TicketInv (w.setStage token .issued) :=
        h.setStage hc CreationStage.noConfusion hunissued
      rcases sharedSet_cases h.nodup hfresh with ⟨-, hsame⟩ | ⟨room, hroom, hsame⟩
      · rw [hsame]
        exact hset
      · rw [hsame]
        refine hset.insert hroom.sublist hfresh
          (.inr ⟨_, Keyed.mem_modify.mpr ⟨c, hmem, rfl⟩, session, ?_⟩)
          fun a _ heq => ticketKey_ne_indexKey heq.symm
        rw [if_pos htoken]
        exact ⟨rfl, hsession, by rw [htoken]⟩
  | refuse store hstore =>
      rcases hstore with rfl | rfl
      · exact h
      · exact h.shrink erase_sublist
  | @accept consumer token checkedAt fails e ticket he hparse htime htakes =>
      obtain ⟨hmem, hkey⟩ := Keyed.mem_of_lookup he
      obtain ⟨c, hc, htoken, hwritten, hvalue, -⟩ := h.ticket_backed hmem hkey
      rw [hvalue, ActionTicket.parse_stringify] at hparse
      obtain rfl := Option.some.inj hparse
      have hshrunk : TicketInv
          { w with store := Keyed.erase MemoryEntry.key (ticketKey token) w.store } :=
        h.shrink erase_sublist
      refine ⟨hshrunk.keys, h.tokens, h.begun, hshrunk.backed, ?_, ?_, ?_⟩
      · refine List.forall_mem_append.mpr ⟨h.vouched, fun a ha => ?_⟩
        obtain rfl := List.mem_singleton.mp ha
        exact ⟨c, hc, hwritten, htoken, htakes, htime⟩
      · refine List.forall_mem_append.mpr ⟨hshrunk.gone, fun a ha e' he' => ?_⟩
        obtain rfl := List.mem_singleton.mp ha
        exact (Keyed.mem_erase.mp he').2
      · exact Keyed.nodup_append_singleton h.once fun a ha heq => h.gone a ha e hmem (heq ▸ hkey)
  | revoke =>
      refine h.revocations (List.forall_mem_append.mpr ⟨h.begun, fun r hr => ?_⟩)
      exact List.mem_singleton.mp hr ▸ le_rfl
  | listKeys hr _ _ => exact h.setRevocation hr
  | delete hr _ =>
      refine (h.setRevocation hr).shrink ?_
      unfold SharedBackend.sharedDel
      split
      · exact .refl _
      · exact erase_sublist
  | clear hr _ =>
      refine (h.setRevocation hr).shrink ?_
      unfold SharedBackend.sharedDelPrefix
      split
      · exact .refl _
      · exact List.filter_sublist
  | tick hclock =>
      exact h.advance (fun c hc => ⟨c, hc, rfl, rfl, rfl, id, id⟩) le_rfl h.tokens hclock

end TicketInv

end Acceptance

/-! ## Revocation -/

section Revocation

variable {backend : SharedBackend} {w w' : TicketWorld} {event : TicketEvent}
  {store store' : MemoryStore} {c d : TicketCreation} {clock' : ℕ} {now now' : Time}
  {token : Text} {e : MemoryEntry}

/-- The index keys whose tickets are still to be deleted. -/
def RevocationStage.todo : RevocationStage → List Text
  | .listing => []
  | .deleting _ todo => todo
  | .revoked _ => []

/-- The ticket of a creation that is over, and its index key behind it for as long. -/
def Listed (store : MemoryStore) (c : TicketCreation) (session : SessionId) : Prop :=
  ∀ e ∈ store, e.key = ticketKey c.token → ∃ x, x.key = indexKey session c.token ∧
    e.expiresAt ≤ x.expiresAt ∧ Precedes e x store

/-- What a revocation has listed of a creation that began before it. -/
def Caught (backend : SharedBackend) (store : MemoryStore) (now : Time) (todo : List Text)
    (c : TicketCreation) (session : SessionId) : Prop :=
  c.stage = .issued ∧ ∀ e ∈ store, e.key = ticketKey c.token → backend.live now e = true →
    indexKey session c.token ∈ todo

structure RevokeInv (backend : SharedBackend) (w : TicketWorld) : Prop where
  listed : ∀ c ∈ w.creations, ∀ session, c.ticket.sessionId = some session → c.stage = .issued →
    Listed w.store c session
  caught : ∀ r ∈ w.revocations, r.stage ≠ .listing → ∀ c ∈ w.creations.take r.begun,
    c.ticket.sessionId = some r.session →
      Caught backend w.store w.clock r.stage.todo c r.session

theorem live_mono (hnow : now ≤ now') (h : backend.live now' e = true) :
    backend.live now e = true := by
  cases backend with
  | memory => exact decide_eq_true (hnow.trans (of_decide_eq_true h))
  | redis => exact decide_eq_true (hnow.trans_lt (of_decide_eq_true h))

theorem live_of_le {x : MemoryEntry} (hle : e.expiresAt ≤ x.expiresAt)
    (h : backend.live now e = true) : backend.live now x = true := by
  cases backend with
  | memory => exact decide_eq_true ((of_decide_eq_true h).trans hle)
  | redis => exact decide_eq_true ((of_decide_eq_true h).trans_le hle)

theorem Caught.mono {todo : List Text} {session : SessionId}
    (h : Caught backend store now todo c session) (hsub : store' ⊆ store) (hnow : now ≤ now') :
    Caught backend store' now' todo c session :=
  ⟨h.1, fun e he hkey hlive => h.2 e (hsub he) hkey (live_mono hnow hlive)⟩

/-- An entry of another kind may come last. -/
theorem Caught.concat {todo : List Text} {session : SessionId}
    (h : Caught backend store now todo c session) (hkey : e.key ≠ ticketKey c.token) :
    Caught backend (store ++ [e]) now todo c session := by
  refine ⟨h.1, fun e' he' hkey' hlive => ?_⟩
  rcases List.mem_append.mp he' with he' | he'
  · exact h.2 e' he' hkey' hlive
  · exact (hkey (List.mem_singleton.mp he' ▸ hkey')).elim

theorem Listed.keepsPairs {session : SessionId} (h : Listed store c session)
    (hkeeps : KeepsPairs store store') : Listed store' c session := by
  intro e he hkey
  obtain ⟨x, hx, hle, hpair⟩ := h e (hkeeps.sublist.subset he) hkey
  exact ⟨x, hx, hle, hkeeps.pair e x hpair he hle⟩

theorem Listed.concat {session : SessionId} (h : Listed store c session)
    (hkey : e.key ≠ ticketKey c.token) : Listed (store ++ [e]) c session := by
  intro e' he' hkey'
  rcases List.mem_append.mp he' with he' | he'
  · obtain ⟨x, hx, hle, hpair⟩ := h e' he' hkey'
    exact ⟨x, hx, hle, hpair.mono (List.sublist_append_left _ _)⟩
  · exact (hkey (List.mem_singleton.mp he' ▸ hkey')).elim

/-- Where entries go, index keys of tickets that stay do not. -/
theorem Listed.filter {session : SessionId} {p : MemoryEntry → Bool} (h : Listed store c session)
    (hp : ∀ e ∈ store.filter p, e.key = ticketKey c.token → ∀ x ∈ store,
      x.key = indexKey session c.token → p x = true) : Listed (store.filter p) c session := by
  intro e he hkey
  obtain ⟨hmem, hpe⟩ := List.mem_filter.mp he
  obtain ⟨x, hx, hle, hpair⟩ := h e hmem hkey
  exact ⟨x, hx, hle, hpair.filter hpe (hp e he hkey x hpair.right hx)⟩

theorem Listed.erase_ticket {session : SessionId} (h : Listed store c session) :
    Listed (Keyed.erase MemoryEntry.key (ticketKey token) store) c session :=
  h.filter fun _ _ _ _ _ hx => decide_eq_true fun hkey =>
    ticketKey_ne_indexKey (hkey.symm.trans hx)

namespace RevokeInv

theorem start : RevokeInv backend {} where
  listed := fun _ hc => by cases hc
  caught := fun _ hr => by cases hr

/-- Less is stored, and every ticket that is left is still listed. -/
theorem shrink (h : RevokeInv backend w) (hsub : store'.Sublist w.store)
    (hlisted : ∀ c ∈ w.creations, ∀ session, c.ticket.sessionId = some session →
      Listed w.store c session → Listed store' c session) :
    RevokeInv backend { w with store := store' } where
  listed c hc session hsession hissued :=
    hlisted c hc session hsession (h.listed c hc session hsession hissued)
  caught r hr hstage c hc hsession :=
    (h.caught r hr hstage c hc hsession).mono hsub.subset le_rfl

theorem erase_ticket (h : RevokeInv backend w) :
    RevokeInv backend
      { w with store := Keyed.erase MemoryEntry.key (ticketKey token) w.store } :=
  h.shrink erase_sublist fun _ _ _ _ hlisted => hlisted.erase_ticket

theorem tick (h : RevokeInv backend w) (hclock : w.clock ≤ clock') :
    RevokeInv backend { w with clock := clock' } where
  listed := h.listed
  caught r hr hstage c hc hsession := (h.caught r hr hstage c hc hsession).mono
    (List.Subset.refl _) (Int.ofNat_le.mpr hclock)

/-- A revocation goes on if it has caught what is left of the tickets that began before it. -/
theorem setRevocation {j : ℕ} {r : TicketRevocation} {stage : RevocationStage}
    (h : RevokeInv backend w)
    (hcaught : ∀ c ∈ w.creations.take r.begun, c.ticket.sessionId = some r.session →
      Caught backend w.store w.clock stage.todo c r.session) :
    RevokeInv backend (w.setRevocation j r stage) where
  listed := h.listed
  caught r' hr' hstage c hc hsession := by
    rcases List.mem_or_eq_of_mem_set hr' with hr' | rfl
    · exact h.caught r' hr' hstage c hc hsession
    · exact hcaught c hc hsession

/-- A creation of a session that goes on has not been waited for by a revocation. -/
theorem setStage {stage : CreationStage} (h : RevokeInv backend w)
    (hunique : ∀ d ∈ w.creations, d.token = c.token → d = c) (hunissued : c.stage ≠ .issued)
    (hlisted : ∀ session, c.ticket.sessionId = some session → stage = .issued →
      Listed w.store c session) : RevokeInv backend (w.setStage c.token stage) where
  listed := by
    rintro d hd session hsession hissued
    obtain ⟨d', hd', rfl⟩ := Keyed.mem_modify.mp hd
    split at hsession
    · rename_i htoken
      obtain rfl := hunique d' hd' htoken
      rw [if_pos htoken] at hissued ⊢
      exact hlisted session hsession hissued
    · rename_i htoken
      rw [if_neg htoken] at hissued ⊢
      exact h.listed d' hd' session hsession hissued
  caught := by
    rintro r hr hstage d hd hsession
    have hd : d ∈ Keyed.modify TicketCreation.token c.token ({ · with stage })
        (w.creations.take r.begun) := by
      rw [Keyed.modify, List.map_take]
      exact hd
    obtain ⟨d', hd', rfl⟩ := Keyed.mem_modify.mp hd
    split at hsession
    · rename_i htoken
      obtain rfl := hunique d' (List.mem_of_mem_take hd') htoken
      exact (hunissued (h.caught r hr hstage d' hd' hsession).1).elim
    · rename_i htoken
      rw [if_neg htoken]
      exact h.caught r hr hstage d' hd' hsession

/-- An entry comes last that is not the ticket of a creation that is over. -/
theorem insert (h : RevokeInv backend w) (hkeeps : KeepsPairs w.store store')
    (hkey : ∀ d ∈ w.creations, ∀ session, d.ticket.sessionId = some session →
      d.stage = .issued → e.key ≠ ticketKey d.token) :
    RevokeInv backend { w with store := store' ++ [e] } where
  listed d hd session hsession hissued :=
    ((h.listed d hd session hsession hissued).keepsPairs hkeeps).concat
      (hkey d hd session hsession hissued)
  caught r hr hstage d hd hsession := by
    have hcaught := (h.caught r hr hstage d hd hsession).mono hkeeps.sublist.subset le_rfl
    exact hcaught.concat (hkey d (List.mem_of_mem_take hd) _ hsession hcaught.1)

theorem generate (h : RevokeInv backend w) (hinv : TicketInv w) (hclock : w.clock ≤ clock')
    (hstage : c.stage = .writing) :
    RevokeInv backend { w with clock := clock', creations := w.creations ++ [c] } where
  listed d hd session hsession hissued := by
    rcases List.mem_append.mp hd with hd | hd
    · exact h.listed d hd session hsession hissued
    · rw [List.mem_singleton.mp hd, hstage] at hissued
      cases hissued
  caught r hr hlisting d hd hsession := by
    rw [List.take_append_of_le_length (hinv.begun r hr)] at hd
    exact (h.tick hclock).caught r hr hlisting d hd hsession

/-- What a revocation lists are the tickets that it has to revoke. -/
theorem list {j : ℕ} {fails : Bool} {r : TicketRevocation} (h : RevokeInv backend w)
    (hr : w.revocations[j]? = some r)
    (hok : revocationsSeeTickets backend w (.listKeys j fails) = true) :
    ∀ c ∈ w.creations.take r.begun, c.ticket.sessionId = some r.session →
      Caught backend w.store w.clock
        (backend.sharedListKeys fails w.store w.clock (indexPrefix r.session)) c r.session := by
  intro c hc hsession
  simp only [revocationsSeeTickets, hr, Bool.and_eq_true, Bool.not_eq_true', List.all_eq_true,
    Bool.or_eq_true, decide_eq_true_eq] at hok
  have hissued := (hok.2 c hc).resolve_left fun hne => hne hsession
  refine ⟨hissued, fun e he hkey hlive => ?_⟩
  obtain ⟨x, hx, hle, hpair⟩ :=
    h.listed c (List.mem_of_mem_take hc) r.session hsession hissued e he hkey
  rw [← hx]
  exact mem_sharedListKeys hok.1 hpair.right (live_of_le hle hlive)
    (hx ▸ startsWith_indexKey.mpr rfl)

/-- A ticket of the session that is there has an index key that the revocation does not clear. -/
theorem clear {j : ℕ} {fails : Bool} {r : TicketRevocation} (h : RevokeInv backend w)
    (hr : w.revocations[j]? = some r)
    (hok : revocationsSeeTickets backend w (.clear j fails) = true) :
    RevokeInv backend
      { w with store := backend.sharedDelPrefix fails w.store (indexPrefix r.session) } := by
  unfold SharedBackend.sharedDelPrefix
  split
  · exact h
  · rename_i hreached
    have hcleared : ∀ c ∈ w.creations, c.ticket.sessionId = some r.session →
        (∀ x ∈ w.store, x.key ≠ indexKey r.session c.token) ∨
          ∀ e ∈ w.store, e.key ≠ ticketKey c.token := by
      intro c hc hsession
      simp only [revocationsSeeTickets, hr, hreached, Bool.false_or, List.all_eq_true,
        Bool.or_eq_true, decide_eq_true_eq, Bool.not_eq_true', List.any_eq_false,
        beq_iff_eq] at hok
      rcases hok c hc with (hother | hindex) | hticket
      · exact (hother hsession).elim
      · exact .inl hindex
      · exact .inr hticket
    refine h.shrink List.filter_sublist fun c hc session hsession hlisted => ?_
    refine hlisted.filter fun e he hkey x hmem hx => ?_
    by_contra hstart
    have hsame : session = r.session := by
      rw [hx] at hstart
      exact startsWith_indexKey.mp (by simpa using hstart)
    rcases hcleared c hc (hsame ▸ hsession) with hindex | hticket
    · exact hindex x hmem (hsame ▸ hx)
    · exact hticket e (List.mem_filter.mp he).1 hkey

theorem writeTicket {fails : Bool} (h : RevokeInv backend w) (hinv : TicketInv w)
    (hc : c ∈ w.creations) (hstage : c.stage = .writing) :
    RevokeInv backend
      { w.setStage c.token (if c.ticket.sessionId.isSome then .indexing else .issued) with
        store := backend.sharedSet fails w.store w.clock (ticketKey c.token) c.ticket.stringify
          c.ttlMs } := by
  -- with a session it is not over yet
  have hopen : ∀ session, c.ticket.sessionId = some session →
      (if c.ticket.sessionId.isSome then CreationStage.indexing else .issued) ≠ .issued := by
    intro session hsession
    rw [hsession]
    exact CreationStage.noConfusion
  have hset := h.setStage (fun d hd htoken => hinv.unique hd hc htoken)
    (hstage ▸ CreationStage.noConfusion)
    fun session hsession heq => (hopen session hsession heq).elim
  rcases sharedSet_cases hinv.nodup (hinv.ticket_fresh hc hstage).1 with
    ⟨-, hsame⟩ | ⟨room, hroom, hsame⟩
  · rw [hsame]
    exact hset
  · rw [hsame]
    refine hset.insert hroom fun d hd session hsession hissued hkey => ?_
    obtain ⟨d', hd', rfl⟩ := Keyed.mem_modify.mp hd
    have htoken : d'.token = c.token := by
      split at hkey
      · assumption
      · exact (ticketKey_inj.mp hkey).symm
    obtain rfl := hinv.unique hd' hc htoken
    rw [if_pos rfl] at hsession hissued
    exact hopen session hsession hissued

theorem writeIndex {fails : Bool} {session : SessionId} (h : RevokeInv backend w)
    (hinv : TicketInv w) (hc : c ∈ w.creations) (hstage : c.stage = .indexing)
    (hsession : c.ticket.sessionId = some session) (hok : backend.misses fails = false) :
    RevokeInv backend
      { w.setStage c.token .issued with
        store := backend.sharedSet fails w.store w.clock (indexKey session c.token) (text "1")
          c.ttlMs } := by
  have hunissued : c.stage ≠ .issued := hstage ▸ CreationStage.noConfusion
  rcases sharedSet_cases hinv.nodup (hinv.index_fresh hc hunissued) with
    ⟨hmissed, -⟩ | ⟨room, hroom, hsame⟩
  · rw [hok] at hmissed
    cases hmissed
  · rw [hsame]
    have hinsert : RevokeInv backend { w with
        store := room ++ [⟨indexKey session c.token, text "1", w.clock + c.ttlMs⟩] } :=
      h.insert hroom fun d _ _ _ _ hkey => ticketKey_ne_indexKey hkey.symm
    refine hinsert.setStage (fun d hd htoken => hinv.unique hd hc htoken) hunissued ?_
    rintro session' hsession' - e hmem hkey
    obtain rfl := Option.some.inj (hsession.symm.trans hsession')
    rcases List.mem_append.mp hmem with he | he
    · obtain ⟨d, hd, htoken, -, -, hexpires⟩ := hinv.ticket_backed (hroom.sublist.subset he) hkey
      obtain rfl := hinv.unique hd hc htoken
      exact ⟨_, rfl, hexpires, Precedes.concat he⟩
    · rw [List.mem_singleton.mp he] at hkey
      exact (ticketKey_ne_indexKey hkey.symm).elim

/-- The first of the keys that are left is dealt with. -/
theorem delete {j : ℕ} {fails : Bool} {r : TicketRevocation} {indexKeys todo : List Text}
    {key : Text} (h : RevokeInv backend w) (hr : w.revocations[j]? = some r)
    (hstage : r.stage = .deleting indexKeys (key :: todo)) (hok : backend.misses fails = false) :
    RevokeInv backend
      { w.setRevocation j r (.deleting indexKeys todo) with
        store := backend.sharedDel fails w.store
          (ticketKey (key.drop (indexPrefix r.session).length)) } := by
  unfold SharedBackend.sharedDel
  rw [if_neg (by simp [hok])]
  refine h.erase_ticket.setRevocation fun c hc hsession => ?_
  have hcaught := h.caught r (List.mem_of_getElem? hr) (hstage ▸ RevocationStage.noConfusion)
    c hc hsession
  rw [hstage] at hcaught
  refine ⟨hcaught.1, fun e he hkey hlive => ?_⟩
  obtain ⟨hmem, hne⟩ := Keyed.mem_erase.mp he
  refine (List.mem_cons.mp (hcaught.2 e hmem hkey hlive)).resolve_left fun heq => hne ?_
  rw [hkey, ← heq, indexKey, List.drop_left]

theorem step (h : RevokeInv backend w) (hinv : TicketInv w)
    (hok : revocationsSeeTickets backend w event = true) (hmove : TicketMove backend w event w') :
    RevokeInv backend w' := by
  cases hmove with
  | generate c hclock _ _ hstage => exact h.generate hinv hclock hstage
  | @writeTicket token fails c hc hstage =>
      obtain ⟨hmem, rfl⟩ := Keyed.mem_of_lookup hc
      exact h.writeTicket hinv hmem hstage
  | @writeIndex token fails c session hc hstage hsession =>
      obtain ⟨hmem, rfl⟩ := Keyed.mem_of_lookup hc
      exact h.writeIndex hinv hmem hstage hsession (by simpa [revocationsSeeTickets] using hok)
  | refuse store hstore =>
      rcases hstore with rfl | rfl
      · exact h
      · exact h.erase_ticket
  | accept _ _ _ _ => exact ⟨h.erase_ticket.listed, h.erase_ticket.caught⟩
  | revoke =>
      refine ⟨h.listed, List.forall_mem_append.mpr ⟨h.caught, fun r hr hstage => ?_⟩⟩
      rw [List.mem_singleton.mp hr] at hstage
      exact (hstage rfl).elim
  | listKeys hr _ hkeys => exact h.setRevocation (hkeys ▸ h.list hr hok)
  | delete hr hstage =>
      exact h.delete hr hstage (by simpa [revocationsSeeTickets] using hok)
  | @clear j fails r indexKeys hr hstage =>
      refine (h.clear hr hok).setRevocation fun c hc hsession => ?_
      have hcaught := h.caught r (List.mem_of_getElem? hr) (hstage ▸ RevocationStage.noConfusion)
        c hc hsession
      rw [hstage] at hcaught
      refine hcaught.mono ?_ le_rfl
      show backend.sharedDelPrefix _ _ _ ⊆ _
      unfold SharedBackend.sharedDelPrefix
      split
      · exact List.Subset.refl _
      · exact List.filter_sublist.subset
  | tick hclock => exact h.tick hclock

end RevokeInv

end Revocation

/-! ## Every run -/

section Runs

variable {backend : SharedBackend} {w : TicketWorld}

/-- In every run tickets are accepted once, in time and for what they are. -/
theorem ticketInv_of_reach {ok : TicketWorld → TicketEvent → Prop}
    (h : Machine.Reach (ticketStep backend) ok {} w) : TicketInv w :=
  h.invariant (P := TicketInv) .start fun hinv _ hs => hinv.step (ticketStep_move hs)

theorem TicketInv.safe (h : TicketInv w) (hrevoke : RevokeInv backend w) :
    TicketsSafe backend w where
  once := h.once
  own a ha := by
    obtain ⟨c, hc, -, htoken, htakes, htime⟩ := h.vouched a ha
    exact ⟨c, hc, htoken, htakes, htime⟩
  revoked r hr count hstage c hc hsession consumer checkedAt fails _ result hok := by
    obtain ⟨e, ticket, he, hlive, -⟩ := consumption_ok (Prod.ext rfl hok)
    obtain ⟨hmem, hkey⟩ := Keyed.mem_of_lookup he
    have hcaught := hrevoke.caught r hr (hstage ▸ RevocationStage.noConfusion) c hc hsession
    rw [hstage] at hcaught
    cases hcaught.2 e hmem hkey hlive

/-- Where revocations see the tickets that were begun before them, tickets are safe. -/
theorem action_tickets_safe
    (h : Machine.Reach (ticketStep backend)
      (fun w event => revocationsSeeTickets backend w event = true) {} w) :
    TicketsSafe backend w := by
  have hinv := h.invariant (P := fun w => TicketInv w ∧ RevokeInv backend w)
    ⟨.start, .start⟩ fun hinv hok hs =>
      ⟨hinv.1.step (ticketStep_move hs), hinv.2.step hinv.1 hok (ticketStep_move hs)⟩
  exact hinv.1.safe hinv.2

/-- In every run, whatever is revoked meanwhile, a ticket is accepted at most once, in its time and
for what it was created for. -/
theorem tickets_accepted_once (h : Machine.Reach (ticketStep backend) Machine.free {} w) :
    (w.accepted.map AcceptedTicket.token).Nodup ∧ ∀ a ∈ w.accepted, Vouched w.creations a :=
  ⟨(ticketInv_of_reach h).once, (ticketInv_of_reach h).vouched⟩

end Runs

/-- The session that the tickets of a run belong to. -/
def sampleSession : SessionId := ⟨"rt_A1", by decide, List.all_eq_true.mp (by decide)⟩

/-- One ticket is taken, another is revoked. -/
theorem action_tickets_safe_logout : ∃ w,
    Machine.Reach (ticketStep .memory)
      (fun w event => revocationsSeeTickets .memory w event = true) {} w ∧
    w.accepted = [⟨text "a", .terminal (some 7), 5⟩] ∧
    w.revocations.map (·.stage) = [.revoked 2] ∧ TicketsSafe .memory w := by
  have hview : (Machine.exec
      (Machine.guarded (ticketStep .memory) (revocationsSeeTickets .memory)) {}
      [.generate (.terminal 7) 1 0 (some sampleSession) (text "a") 0, .writeTicket (text "a") false,
        .writeIndex (text "a") false, .consume (.terminal (some 7)) (text "a") 5 false,
        .generate .oauthBind 1 0 (some sampleSession) (text "b") 9, .writeTicket (text "b") false,
        .writeIndex (text "b") false, .revoke sampleSession, .listKeys 0 false, .delete 0 false,
        .delete 0 false, .clear 0 false]).map
      (fun w => (w.accepted, w.revocations.map (·.stage))) =
      some ([⟨text "a", .terminal (some 7), 5⟩], [.revoked 2]) := by
    decide +kernel
  obtain ⟨w, hw, hviews⟩ := Option.map_eq_some_iff.mp hview
  obtain ⟨haccepted, hstages⟩ := Prod.mk.inj hviews
  have hrun := Machine.reach_of_exec_guarded hw
  exact ⟨w, hrun, haccepted, hstages, action_tickets_safe hrun⟩

theorem tickets_accepted_once_terminal : ∃ w,
    Machine.Reach (ticketStep .memory) Machine.free {} w ∧
    w.accepted = [⟨text "a", .terminal (some 7), 5⟩] ∧
      ∀ a ∈ w.accepted, Vouched w.creations a := by
  have hview : (Machine.exec (ticketStep .memory) {}
      [.generate (.terminal 7) 1 0 (some sampleSession) (text "a") 0, .writeTicket (text "a") false,
        .consume (.terminal (some 7)) (text "a") 5 false]).map (·.accepted) =
      some [⟨text "a", .terminal (some 7), 5⟩] := by
    decide +kernel
  obtain ⟨w, hw, haccepted⟩ := Option.map_eq_some_iff.mp hview
  have hrun := Machine.reach_of_exec hw
  exact ⟨w, hrun, haccepted, (tickets_accepted_once hrun).2⟩

/-- A revocation between the two entries of a ticket: the ticket is good after it. -/
theorem ticket_outlives_revocation : ¬∀ backend w,
    Machine.Reach (ticketStep backend) Machine.free {} w → TicketsSafe backend w := by
  intro h
  have hview : (Machine.exec (ticketStep .memory) {}
      [.generate .oauthBind 1 0 (some sampleSession) (text "a") 0, .writeTicket (text "a") false,
        .revoke sampleSession, .listKeys 0 false, .clear 0 false, .writeIndex (text "a") false]).map
      (fun w => (w.creations.map fun c => (c.token, c.ticket.sessionId), w.revocations,
        (consumption .memory w.store w.clock w.clock (text "a") false .oauthBind).2.toOption)) =
      some ([(text "a", some sampleSession)], [⟨sampleSession, 1, .revoked 0⟩],
        some ⟨1, 0, some sampleSession, none⟩) := by
    decide +kernel
  obtain ⟨w, hw, hviews⟩ := Option.map_eq_some_iff.mp hview
  simp only [Prod.mk.injEq] at hviews
  obtain ⟨hcreations, hrevocations, hgood⟩ := hviews
  obtain ⟨c, cs, hcs, hc, -⟩ := List.map_eq_cons_iff.mp hcreations
  obtain ⟨htoken, hsession⟩ := Prod.mk.inj hc
  refine (h .memory w (Machine.reach_of_exec hw)).revoked ⟨sampleSession, 1, .revoked 0⟩ ?_ 0 rfl c
    ?_ hsession .oauthBind w.clock false le_rfl ⟨1, 0, some sampleSession, none⟩ ?_
  · exact hrevocations ▸ List.mem_cons_self
  · exact hcs ▸ List.mem_cons_self
  · rw [htoken]
    exact toOption_eq_some hgood

end Incudal
