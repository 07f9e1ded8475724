/-
# `AgentAuth` — the checks on an agent's request

`authenticateAgentRequest` runs in stretches between which it waits for the
database: the headers, the freshness of the timestamp and the hash of the body
are checked when the request comes in; the agent is looked up; its signature is
checked and the clock is read for the nonce; and one transaction drops the
expired nonces and stores the new one.  Requests are in flight between these,
for as long as it takes.

The digests, the decryption of the stored secret and the printing of fractions
are parameters.
-/
import Incudal.AgentBody
import Incudal.Lib.Keyed
import Incudal.Lib.Machine

namespace Incudal

open Json (Value)

/-- `agentTimestampWindowMs`. -/
def agentTimestampWindowMs : Time := 300000

/-- `agentNonceTtlMs`. -/
def agentNonceTtlMs : Time := 600000

/-! ## Requests -/

/-- The methods that a route can have. -/
inductive HttpMethod
  | get | head | post | put | patch | delete | options
deriving DecidableEq, Repr

def HttpMethod.name : HttpMethod → String
  | .get => "GET"
  | .head => "HEAD"
  | .post => "POST"
  | .put => "PUT"
  | .patch => "PATCH"
  | .delete => "DELETE"
  | .options => "OPTIONS"

/-- A request as it comes in; of a repeated header the first value counts. -/
structure AgentRequest where
  method : HttpMethod
  url : String
  agentId : Option String
  timestamp : Option String
  nonce : Option String
  bodyHash : Option String
  signature : Option String
  body : Option Value

structure AgentAuthHeaders where
  agentId : String
  timestamp : String
  nonce : String
  bodyHash : String
  signature : String
deriving DecidableEq, Repr

structure AgentSigningPayload where
  method : String
  path : String
  timestamp : String
  nonce : String
  bodyHash : String
deriving DecidableEq, Repr

/-- A row of `host_agents`. -/
structure HostAgent where
  enabled : Bool
  secretEncrypted : String
deriving DecidableEq, Repr

/-- Why a request is refused. -/
inductive AuthError
  | required
  | invalid (details : String)
  | expired
  | bodyHashMismatch
  | disabled
  | secretInvalid
  | signatureInvalid
  | nonceReplay
  /-- another error of the database, which is thrown on -/
  | thrown
deriving DecidableEq, Repr

/-- The code of the answer. -/
def AuthError.code : AuthError → Option String
  | .required => some "AGENT_AUTH_REQUIRED"
  | .invalid _ => some "AGENT_AUTH_INVALID"
  | .expired => some "AGENT_AUTH_EXPIRED"
  | .bodyHashMismatch => some "AGENT_BODY_HASH_MISMATCH"
  | .disabled => some "AGENT_DISABLED"
  | .secretInvalid => some "AGENT_SECRET_INVALID"
  | .signatureInvalid => some "AGENT_SIGNATURE_INVALID"
  | .nonceReplay => some "AGENT_NONCE_REPLAY"
  | .thrown => none

/-! ## Patterns -/

/-- A letter or a digit. -/
def isWordChar (c : Char) : Bool := c.isAlphanum

/-- Between `low` and `high` characters that all pass. -/
def matchesClass (p : Char → Bool) (low high : ℕ) (cs : List Char) : Bool :=
  decide (low ≤ cs.length) && decide (cs.length ≤ high) && cs.all p

/-- The same after a prefix of four characters. -/
def matchesPrefixed (start : List Char) (p : Char → Bool) (low high : ℕ) (s : String) : Bool :=
  s.toList.take 4 == start && matchesClass p low high (s.toList.drop 4)

/-- `agentIdPattern`. -/
def isValidAgentId : String → Bool :=
  matchesPrefixed ['a', 'g', 't', '_'] (fun c => isWordChar c || c == '_' || c == '-') 24 64

/-- `secretPattern`. -/
def isValidAgentSecret : String → Bool :=
  matchesPrefixed ['i', 'a', 's', '_'] (fun c => isWordChar c || c == '_' || c == '-') 32 96

/-- `noncePattern`. -/
def isValidNonce (s : String) : Bool :=
  matchesClass (fun c => isWordChar c || c == '.' || c == '_' || c == ':' || c == '-') 8 128 s.toList

/-- Thirteen digits. -/
def isValidTimestamp (s : String) : Bool := matchesClass Char.isDigit 13 13 s.toList

/-- `sha256HexPattern`. -/
def isSha256Hex (s : String) : Bool :=
  matchesClass (fun c => (Json.hexDigit c).isSome) 64 64 s.toList

/-! ## The checks -/

/-- A header that is there and not empty. -/
def presentHeader (value : Option String) : Option String := value.filter (· != "")

def readAgentAuthHeaders (r : AgentRequest) : Option AgentAuthHeaders := do
  let agentId ← presentHeader r.agentId
  let timestamp ← presentHeader r.timestamp
  let nonce ← presentHeader r.nonce
  let bodyHash ← presentHeader r.bodyHash
  let signature ← presentHeader r.signature
  return { agentId, timestamp, nonce, bodyHash, signature }

def validateAgentHeaders (headers : AgentAuthHeaders) : Option String :=
  if !isValidAgentId headers.agentId then some "invalid agent id"
  else if !isValidTimestamp headers.timestamp then some "invalid timestamp"
  else if !isValidNonce headers.nonce then some "invalid nonce"
  else if !isSha256Hex headers.bodyHash then some "invalid body hash"
  else if !isSha256Hex headers.signature then some "invalid signature"
  else none

/-- `Number` of a timestamp of digits. -/
def timestampMs (timestamp : String) : Time := Nat.ofDigitChars 10 timestamp.toList 0

/-- `Number.MAX_SAFE_INTEGER`. -/
def maxSafeInteger : ℤ := 2 ^ 53 - 1

def isAgentTimestampFresh (timestamp : String) (now : Time) : Bool :=
  let timestamp := timestampMs timestamp
  if timestamp ≤ maxSafeInteger then decide (|now - timestamp| ≤ agentTimestampWindowMs) else false

/-- The path of a request: its URL up to the query. -/
def buildRequestPath (url : String) : String :=
  let path := String.ofList (url.toList.takeWhile (· != '?'))
  if path = "" then url else path

/-- `request.body ?? {}`. -/
def requestBody : Option Value → Value
  | none | some .null => .object []
  | some body => body

def buildAgentSigningPayload (payload : AgentSigningPayload) : String :=
  "\n".intercalate
    [payload.method.toUpper, payload.path, payload.timestamp, payload.nonce, payload.bodyHash.toLower]

/-- What the checks use from outside. -/
structure AuthTools where
  /-- SHA-256 of a text, in hexadecimal -/
  sha256 : String → String
  /-- HMAC-SHA-256 of a text under a secret, in hexadecimal -/
  hmac : String → String → String
  decryptSensitiveData : String → Option String
  floatText : List Char → List Char

namespace AuthTools

variable (tools : AuthTools)

def createAgentBodyHash (body : Value) : String :=
  tools.sha256 (String.ofList (stableStringifyAgentBody tools.floatText body))

def createAgentSignature (secret : String) (payload : AgentSigningPayload) : String :=
  tools.hmac secret (buildAgentSigningPayload payload)

def verifyAgentSignature (secret : String) (payload : AgentSigningPayload) (signature : String) :
    Bool :=
  if !isSha256Hex signature then false
  else tools.createAgentSignature secret payload == signature.toLower

/-- The payload that the panel takes the signature for. -/
def signingPayload (r : AgentRequest) (headers : AgentAuthHeaders) : AgentSigningPayload :=
  { method := r.method.name
    path := buildRequestPath r.url
    timestamp := headers.timestamp
    nonce := headers.nonce
    bodyHash := tools.createAgentBodyHash (requestBody r.body) }

/-- The first stretch, up to the look-up of the agent. -/
def receive (now : Time) (r : AgentRequest) : Except AuthError AgentAuthHeaders :=
  match readAgentAuthHeaders r with
  | none => .error .required
  | some headers =>
      match validateAgentHeaders headers with
      | some details => .error (.invalid details)
      | none =>
          if !isAgentTimestampFresh headers.timestamp now then .error .expired
          else if tools.createAgentBodyHash (requestBody r.body) ≠ headers.bodyHash.toLower then
            .error .bodyHashMismatch
          else .ok headers

/-- The stretch after it: the secret under which the signature is valid. -/
def verify (r : AgentRequest) (headers : AgentAuthHeaders) (agent : Option HostAgent) :
    Except AuthError String :=
  match agent with
  | none => .error .disabled
  | some agent =>
      if !agent.enabled then .error .disabled
      else
        match tools.decryptSensitiveData agent.secretEncrypted with
        | none => .error .secretInvalid
        | some secret =>
            if !isValidAgentSecret secret then .error .secretInvalid
            else if !tools.verifyAgentSignature secret (tools.signingPayload r headers)
                headers.signature then .error .signatureInvalid
            else .ok secret

end AuthTools

/-! ## Requests in flight -/

/-- A row of `host_agent_nonces`. -/
structure AgentNonce where
  agentId : String
  nonce : String
  expiresAt : Time
deriving DecidableEq, Repr

/-- What a request in flight has got so far. -/
inductive AuthStage
  | received
  | found (agent : Option HostAgent)
  | prepared (secret : String) (purgeBefore expiresAt : Time)
deriving DecidableEq, Repr

structure InFlight where
  id : ℕ
  request : AgentRequest
  headers : AgentAuthHeaders
  stage : AuthStage

/-- A request that has been accepted. -/
structure AcceptedRequest where
  request : AgentRequest
  headers : AgentAuthHeaders
  secret : String

structure AuthWorld where
  now : Time
  agents : String → Option HostAgent
  /-- the agents that have been deleted; an id is drawn at random and not used again -/
  retired : List String := []
  nonces : List AgentNonce := []
  inFlight : List InFlight := []
  nextId : ℕ := 0
  accepted : List AcceptedRequest := []

inductive AuthEvent
  | advance (now : Time)
  | saveAgent (agentId : String) (agent : HostAgent)
  | deleteAgent (agentId : String)
  | receive (request : AgentRequest)
  | find (id : ℕ)
  | verify (id : ℕ) (createdAt : Time)
  | commit (id : ℕ)
  | abort (id : ℕ)

namespace AuthWorld

variable (w : AuthWorld)

def request (id : ℕ) : Option InFlight := Keyed.lookup InFlight.id id w.inFlight

/-- The request has ended. -/
def drop (id : ℕ) : AuthWorld := { w with inFlight := Keyed.erase InFlight.id id w.inFlight }

def setStage (id : ℕ) (stage : AuthStage) : AuthWorld :=
  { w with inFlight := Keyed.modify InFlight.id id ({ · with stage }) w.inFlight }

/-- The nonces that a transaction keeps. -/
def noncesFrom (purgeBefore : Time) : List AgentNonce :=
  w.nonces.filter fun n => !decide (n.expiresAt < purgeBefore)

/-- The transaction: the table it leaves.  Agent and nonce are unique, and the
agent has to be there. -/
def storeNonce (headers : AgentAuthHeaders) (purgeBefore expiresAt : Time) :
    Except AuthError (List AgentNonce) :=
  let nonces := w.noncesFrom purgeBefore
  if nonces.any fun n => n.agentId == headers.agentId && n.nonce == headers.nonce then
    .error .nonceReplay
  else if (w.agents headers.agentId).isNone then .error .thrown
  else .ok (nonces ++ [{ agentId := headers.agentId, nonce := headers.nonce, expiresAt }])

end AuthWorld

variable (tools : AuthTools)

def authStep (w : AuthWorld) : AuthEvent → Option AuthWorld
  | .advance now => if w.now ≤ now then some { w with now } else none
  | .saveAgent agentId agent =>
      if agentId ∈ w.retired then none
      else some { w with agents := Function.update w.agents agentId (some agent) }
  | .deleteAgent agentId =>
      some { w with
        agents := Function.update w.agents agentId none
        retired := agentId :: w.retired
        nonces := w.nonces.filter fun n => n.agentId != agentId }
  | .receive request =>
      match tools.receive w.now request with
      | .error _ => some w
      | .ok headers =>
          some { w with
            inFlight := { id := w.nextId, request, headers, stage := .received } :: w.inFlight
            nextId := w.nextId + 1 }
  | .find id =>
      match w.request id with
      | some p =>
          if p.stage = .received then some (w.setStage id (.found (w.agents p.headers.agentId)))
          else none
      | none => none
  | .verify id createdAt =>
      -- the clock is read twice, for the purge and for the new row
      if w.now ≤ createdAt then
        match w.request id with
        | some p =>
            match p.stage with
            | .found agent =>
                match tools.verify p.request p.headers agent with
                | .error _ => some { w.drop id with now := createdAt }
                | .ok secret =>
                    some { w.setStage id
                      (.prepared secret w.now (createdAt + agentNonceTtlMs)) with now := createdAt }
            | _ => none
        | none => none
      else none
  | .commit id =>
      match w.request id with
      | some p =>
          match p.stage with
          | .prepared secret purgeBefore expiresAt =>
              match w.storeNonce p.headers purgeBefore expiresAt with
              | .error _ => some (w.drop id)
              | .ok nonces =>
                  some { w.drop id with
                    nonces
                    accepted := { request := p.request, headers := p.headers, secret } :: w.accepted }
          | _ => none
      | none => none
  | .abort id => some (w.drop id)

end Incudal
