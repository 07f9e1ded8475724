/-
# `OAuthTokens` — signed states and login codes, and what each is taken for

A state goes through the provider and back, a login code from the callback to
the page.  Both are a JSON object in base64url, a dot and an HMAC of it with the
same secret; both are verified by the signature, the age and a marker that lets
each nonce through once.

Nothing in the object says what it is for.  A login code passes for a state if
the browser's nonce is set to its own, and a state for a login code while it is
younger than a login code may be (`state_taken_for_login_code`).  Where no string
is shown for the other purpose in such a way, each is accepted for its own, once
and in time (`oauth_tokens_safe`).
-/
import Incudal.BodyAgreement
import Incudal.Lib.Base64Url
import Incudal.Lib.Delimited
import Incudal.Lib.Machine

namespace Incudal

open Json (JsChar Value commas ParsesString ParsesMember Parses)

/-! ## Objects and their text -/

/-- The values of the members that are signed. -/
inductive JsonField
  | text (s : String)
  | number (n : ℕ)
deriving DecidableEq, Repr

def jsText (s : String) : List JsChar := s.toList.map .char

def JsonField.value : JsonField → Value
  | .text s => .string (jsText s)
  | .number n => .number (Nat.toDigits 10 n)

/-- `JSON.stringify` of a string. -/
def stringifyText (s : String) : List Char :=
  '"' :: (s.toList.flatMap (fun c => jsonQuote (.char c)) ++ ['"'])

def JsonField.stringify : JsonField → List Char
  | .text s => stringifyText s
  | .number n => Nat.toDigits 10 n

/-- `JSON.stringify` of an object. -/
def stringifyFields (fields : List (String × JsonField)) : List Char :=
  '{' :: (commas (fields.map fun f => stringifyText f.1 ++ ':' :: f.2.stringify) ++ ['}'])

/-- `data.name`. -/
def property (name : String) : Value → Option Value
  | .object properties => (properties.find? fun p => p.1 == jsText name).map Prod.snd
  | _ => none

inductive OAuthMode
  | login | bind
deriving DecidableEq, Repr

def OAuthMode.name : OAuthMode → String
  | .login => "login"
  | .bind => "bind"

structure OAuthStateData where
  mode : OAuthMode
  redirect : String
  timestamp : ℕ
  nonce : String
  userId : Option ℕ
deriving DecidableEq, Repr

structure OAuthLoginCodeData where
  userId : ℕ
  username : String
  role : String
  timestamp : ℕ
  nonce : String
deriving DecidableEq, Repr

/-- The members, an undefined one left out. -/
def OAuthStateData.fields (data : OAuthStateData) : List (String × JsonField) :=
  [("mode", .text data.mode.name), ("redirect", .text data.redirect),
   ("timestamp", .number data.timestamp), ("nonce", .text data.nonce)] ++
    (data.userId.map fun userId => ("userId", JsonField.number userId)).toList

def OAuthLoginCodeData.fields (data : OAuthLoginCodeData) : List (String × JsonField) :=
  [("userId", .number data.userId), ("username", .text data.username), ("role", .text data.role),
   ("timestamp", .number data.timestamp), ("nonce", .text data.nonce)]

/-! ## Tokens -/

def OAUTH_STATE_TTL_MS : ℕ := 10 * 60 * 1000

def OAUTH_LOGIN_CODE_TTL_MS : ℕ := 60 * 1000

/-- JavaScript's conversions of what is no string and no natural number. -/
structure JsConversions where
  /-- `Date.now() - timestamp > ttl` -/
  stale : Option Value → ℕ → ℕ → Bool
  /-- the text of a value in a template -/
  shown : Option Value → List JsChar

section Tokens

-- the HMAC under the secret of the panel
variable (hmac : List UInt8 → List UInt8) (js : JsConversions)

def payloadOf (fields : List (String × JsonField)) : List Char :=
  Base64Url.encode (Utf8.encode (stringifyFields fields))

def signatureOf (payload : List Char) : List Char := Base64Url.encode (hmac (Utf8.encode payload))

def tokenOf (fields : List (String × JsonField)) : List Char :=
  payloadOf fields ++ '.' :: signatureOf hmac (payloadOf fields)

def generateOAuthState (data : OAuthStateData) : List Char := tokenOf hmac data.fields

def generateOAuthLoginCode (data : OAuthLoginCodeData) : List Char := tokenOf hmac data.fields

/-- Two parts, of which the second is the signature of the first. -/
def isSigned (token : List Char) : Bool :=
  match token.splitOn '.' with
  | [payload, signature] => signature == signatureOf hmac payload
  | _ => false

/-- What a signed token has in it. -/
def openToken (token : List Char) : Option Value :=
  match token.splitOn '.' with
  | [payload, signature] =>
      if signature == signatureOf hmac payload then
        Json.parse (Utf8.decodeLossy (Base64Url.decode payload))
      else none
  | _ => none

/-- A number that is written with digits only. -/
def naturalOf (literal : List Char) : Option ℕ :=
  if literal ≠ [] ∧ literal.all Char.isDigit then some (Nat.ofDigitChars 10 literal 0) else none

/-- `Date.now() - data.timestamp > ttl`. -/
def isStale (data : Value) (now ttl : ℕ) : Bool :=
  match property "timestamp" data with
  | some (.number literal) =>
      match naturalOf literal with
      | some timestamp => decide (timestamp + ttl < now)
      | none => js.stale (some (.number literal)) now ttl
  | timestamp => js.stale timestamp now ttl

/-- The checks of `verifyAndConsumeOAuthState` up to the marker, and the nonce for that. -/
def checkOAuthState (now : ℕ) (stateToken : List Char) (expectedNonce : String) :
    Option (List JsChar) :=
  if expectedNonce = "" then none
  else
    match openToken hmac stateToken with
    | none | some .null => none
    | some data =>
        if isStale js data now OAUTH_STATE_TTL_MS then none
        else
          match property "nonce" data with
          | some (.string nonce) => if nonce = jsText expectedNonce then some nonce else none
          | _ => none

/-- Those of `verifyAndConsumeOAuthLoginCode`. -/
def checkOAuthLoginCode (now : ℕ) (code : List Char) : Option (List JsChar) :=
  match openToken hmac code with
  | none | some .null => none
  | some data =>
      if isStale js data now OAUTH_LOGIN_CODE_TTL_MS then none
      else
        match property "nonce" data with
        | some (.string nonce) => some nonce
        | nonce => some (js.shown nonce)

/-! ## The panel -/

inductive TokenPurpose
  | state | login
deriving DecidableEq, Repr

def TokenPurpose.ttl : TokenPurpose → ℕ
  | .state => OAUTH_STATE_TTL_MS
  | .login => OAUTH_LOGIN_CODE_TTL_MS

/-- The key of the marker. -/
def TokenPurpose.markerKey (nonce : List JsChar) : TokenPurpose → List JsChar
  | .state => jsText "oauth-state-nonce:" ++ nonce
  | .login => jsText "oauth-login-nonce:" ++ nonce

structure NonceMarker where
  key : List JsChar
  expiresAt : ℕ
deriving DecidableEq, Repr

structure OAuthToken where
  purpose : TokenPurpose
  token : List Char
  timestamp : ℕ
  nonce : String
deriving DecidableEq, Repr

/-- A verification that has passed its checks; a state comes with the nonce of the browser. -/
structure TokenUse where
  purpose : TokenPurpose
  token : List Char
  nonce : List JsChar
  browserNonce : Option String
deriving DecidableEq, Repr

structure AcceptedToken extends TokenUse where
  time : ℕ
deriving DecidableEq, Repr

structure OAuthWorld where
  clock : ℕ := 0
  markers : List NonceMarker := []
  /-- the verifications before their marker, none for those that are over -/
  calls : List (Option TokenUse) := []
  /-- what has been issued and accepted -/
  issued : List OAuthToken := []
  accepted : List AcceptedToken := []
deriving DecidableEq, Repr

inductive OAuthEvent
  | generateOAuthState (mode : OAuthMode) (redirect : String) (userId : Option ℕ) (nonce : String)
  | generateOAuthLoginCode (userId : ℕ) (username role nonce : String)
  | verifyAndConsumeOAuthState (stateToken : List Char) (expectedNonce : String)
  | verifyAndConsumeOAuthLoginCode (code : List Char)
  /-- the marker of a verification -/
  | addOnce (k : ℕ)
  /-- the store cannot be reached, and the verification fails -/
  | fail (k : ℕ)
  | tick (now : ℕ)
deriving DecidableEq, Repr

/-- `sharedAddOnce` of a verification, which is accepted if there was no marker. -/
def OAuthWorld.addOnce (w : OAuthWorld) (k : ℕ) (use : TokenUse) : OAuthWorld :=
  let key := use.purpose.markerKey use.nonce
  if w.markers.any fun m => m.key == key && decide (w.clock ≤ m.expiresAt) then
    { w with calls := w.calls.set k none }
  else
    { w with
        markers := w.markers.filter (fun m => m.key != key) ++
          [{ key, expiresAt := w.clock + use.purpose.ttl }]
        calls := w.calls.set k none
        accepted := w.accepted ++ [{ use with time := w.clock }] }

def oauthStep (w : OAuthWorld) : OAuthEvent → Option OAuthWorld
  | .generateOAuthState mode redirect userId nonce =>
      let data : OAuthStateData := { mode, redirect, timestamp := w.clock, nonce, userId }
      some { w with
        issued := w.issued ++ [⟨.state, generateOAuthState hmac data, w.clock, nonce⟩] }
  | .generateOAuthLoginCode userId username role nonce =>
      let data : OAuthLoginCodeData := { userId, username, role, timestamp := w.clock, nonce }
      some { w with
        issued := w.issued ++ [⟨.login, generateOAuthLoginCode hmac data, w.clock, nonce⟩] }
  | .verifyAndConsumeOAuthState stateToken expectedNonce =>
      some { w with
        calls := w.calls ++ [(checkOAuthState hmac js w.clock stateToken expectedNonce).map
          fun nonce => ⟨.state, stateToken, nonce, some expectedNonce⟩] }
  | .verifyAndConsumeOAuthLoginCode code =>
      some { w with
        calls := w.calls ++ [(checkOAuthLoginCode hmac js w.clock code).map
          fun nonce => ⟨.login, code, nonce, none⟩] }
  | .addOnce k =>
      match w.calls[k]? with
      | some (some use) => some (w.addOnce k use)
      | _ => none
  | .fail k => some { w with calls := w.calls.set k none }
  | .tick now => if w.clock ≤ now then some { w with clock := now } else none

/-! ## What is promised, and when it is kept -/

/-- A token is accepted for what it was issued for, in time and once, and a state with the nonce
of the browser. -/
structure OAuthTokensSafe (w : OAuthWorld) : Prop where
  own : ∀ a ∈ w.accepted, ∃ i ∈ w.issued, i.purpose = a.purpose ∧ i.token = a.token ∧
    i.timestamp ≤ a.time ∧ a.time ≤ i.timestamp + a.purpose.ttl ∧
    (a.purpose = .state → a.browserNonce = some i.nonce)
  once : (w.accepted.map fun a => (a.purpose, a.token)).Nodup

/-- Who has not got it from the panel does not know the signature of a string. -/
def unforged (w : OAuthWorld) : OAuthEvent → Bool
  | .verifyAndConsumeOAuthState token _ | .verifyAndConsumeOAuthLoginCode token =>
      !isSigned hmac token || w.issued.any fun i => i.token == token
  | _ => true

/-- A login code is not shown as a state with its own nonce and young enough, nor a state as a
login code while it is young enough for that; and a marker is set while its token is good. -/
def keepsPurpose (w : OAuthWorld) : OAuthEvent → Bool
  | .verifyAndConsumeOAuthState token expectedNonce =>
      w.issued.all fun i => i.purpose == .state || i.token != token || i.nonce != expectedNonce ||
        decide (i.timestamp + OAUTH_STATE_TTL_MS < w.clock)
  | .verifyAndConsumeOAuthLoginCode token =>
      w.issued.all fun i => i.purpose == .login || i.token != token ||
        decide (i.timestamp + OAUTH_LOGIN_CODE_TTL_MS < w.clock)
  | .addOnce k =>
      match w.calls[k]? with
      | some (some use) =>
          w.issued.all fun i => i.token != use.token ||
            decide (w.clock ≤ i.timestamp + use.purpose.ttl)
      | _ => true
  | _ => true

end Tokens

/-! ## What is signed is read back -/

section Codec

variable {hmac : List UInt8 → List UInt8} {fields : List (String × JsonField)} {name : String}
  {value : JsonField}

theorem jsText_injective : Function.Injective jsText := fun _ _ h =>
  String.toList_injective (List.map_injective_iff.mpr (fun _ _ h => JsChar.char.inj h) h)

theorem jsonQuote_ne_nil (c : JsChar) : jsonQuote c ≠ [] := by
  unfold jsonQuote
  repeat' split
  all_goals exact List.cons_ne_nil _ _

/-- What is written for a character is read as it. -/
theorem parseString_jsonQuote (c : Char) (f : ℕ) (rest : List Char) :
    Json.parseString (f + 1) (jsonQuote (.char c) ++ rest) =
      Json.push (.char c) (Json.parseString f rest) := by
  simp only [jsonQuote]
  split
  · rename_i h
    exact h ▸ Json.parseString_escape rfl (by decide) f rest
  split
  · rename_i h
    exact h ▸ Json.parseString_escape rfl (by decide) f rest
  split
  · rename_i h
    exact h ▸ Json.parseString_escape rfl (by decide) f rest
  split
  · rename_i h
    exact h ▸ Json.parseString_escape rfl (by decide) f rest
  split
  · rename_i h
    exact h ▸ Json.parseString_escape rfl (by decide) f rest
  split
  · rename_i h
    rcases h with rfl | rfl
    · exact Json.parseString_escape rfl (by decide) f rest
    · exact Json.parseString_escape rfl (by decide) f rest
  rename_i hquote
  split
  · rename_i h
    obtain ⟨hunit, hchar, hhigh⟩ := hexUnit_control c.toNat h
    rw [Json.parseString_unit hunit hhigh, hchar, Char.ofNat_toNat]
  · rename_i hcontrol
    rw [not_or] at hquote
    exact Json.parseString_plain hquote.1 hquote.2 hcontrol f rest

theorem parsesString_text (cs : List Char) :
    ParsesString (cs.flatMap fun c => jsonQuote (.char c)) (cs.map .char) := by
  induction cs with
  | nil => exact ParsesString.nil
  | cons c cs ih =>
      rw [List.flatMap_cons, List.map_cons]
      exact ParsesString.cons (jsonQuote_ne_nil _) (parseString_jsonQuote c) ih

theorem JsonField.parses (value : JsonField) : Parses value.stringify value.value := by
  cases value with
  | text s => exact Parses.string (parsesString_text s.toList)
  | number n => exact Parses.number (isNumber_toDigits n)

theorem parse_stringifyFields (h : (fields.map Prod.fst).Nodup) :
    Json.parse (stringifyFields fields) =
      some (.object (fields.map fun f => (jsText f.1, f.2.value))) := by
  have hmembers : List.Forall₂ ParsesMember
      (fields.map fun f => stringifyText f.1 ++ ':' :: f.2.stringify)
      (fields.map fun f => (jsText f.1, f.2.value)) := by
    rw [List.forall₂_map_left_iff, List.forall₂_map_right_iff, List.forall₂_same]
    intro f _
    refine ⟨_, f.2.stringify, ?_, parsesString_text f.1.toList, f.2.parses⟩
    simp [stringifyText]
  have hnames : ((fields.map fun f => (jsText f.1, f.2.value)).map Prod.fst).Nodup := by
    have hcompose : (fields.map fun f => (jsText f.1, f.2.value)).map Prod.fst =
        (fields.map Prod.fst).map jsText := by
      rw [List.map_map, List.map_map]
      rfl
    rw [hcompose]
    exact h.map jsText_injective
  rw [← Json.ofMembers_of_nodup hnames]
  exact Json.parse_of_parses (Parses.object hmembers)

theorem decodeLossy_encode (cs : List Char) : Utf8.decodeLossy (Utf8.encode cs) = cs := by
  rw [Utf8.decodeLossy, Utf8.runes_encode, List.map_map]
  exact List.map_id cs

theorem splitOn_tokenOf (fields : List (String × JsonField)) :
    (tokenOf hmac fields).splitOn '.' =
      [payloadOf fields, signatureOf hmac (payloadOf fields)] := by
  have hjoin : tokenOf hmac fields =
      ['.'].intercalate [payloadOf fields, signatureOf hmac (payloadOf fields)] := by
    simp [tokenOf, List.intercalate]
  rw [hjoin]
  refine List.splitOn_intercalate '.' ?_ (List.cons_ne_nil _ _)
  intro part hpart
  simp only [List.mem_cons, List.not_mem_nil, or_false] at hpart
  rcases hpart with rfl | rfl
  · exact Base64Url.dot_not_mem_encode _
  · exact Base64Url.dot_not_mem_encode _

theorem openToken_tokenOf (h : (fields.map Prod.fst).Nodup) :
    openToken hmac (tokenOf hmac fields) =
      some (.object (fields.map fun f => (jsText f.1, f.2.value))) := by
  rw [openToken, splitOn_tokenOf]
  simp only [beq_self_eq_true, if_true]
  rw [payloadOf, Base64Url.decode_encode, decodeLossy_encode, parse_stringifyFields h]

theorem property_fields (h : (fields.map Prod.fst).Nodup) (hmem : (name, value) ∈ fields) :
    property name (.object (fields.map fun f => (jsText f.1, f.2.value))) = some value.value := by
  induction fields with
  | nil => cases hmem
  | cons first fields ih =>
      rw [List.map_cons, List.nodup_cons] at h
      rw [List.map_cons, property, List.find?_cons]
      rcases List.mem_cons.mp hmem with rfl | hmem
      · rw [beq_self_eq_true]
        rfl
      · have hne : first.1 ≠ name := fun he => h.1 (he ▸ List.mem_map_of_mem hmem)
        have hkey : (jsText first.1 == jsText name) = false :=
          beq_eq_false_iff_ne.mpr fun he => hne (jsText_injective he)
        rw [hkey]
        exact ih h.2 hmem

theorem naturalOf_toDigits (n : ℕ) : naturalOf (Nat.toDigits 10 n) = some n := by
  rw [naturalOf, if_pos ⟨Nat.toDigits_ne_nil, isDigit_toDigits n⟩]
  simp

/-- A token with a timestamp and a nonce. -/
structure Describes (hmac : List UInt8 → List UInt8) (i : OAuthToken) : Prop where
  opened : ∃ properties, openToken hmac i.token = some (.object properties) ∧
    property "timestamp" (.object properties) = some (.number (Nat.toDigits 10 i.timestamp)) ∧
    property "nonce" (.object properties) = some (.string (jsText i.nonce))

theorem describes_tokenOf {purpose : TokenPurpose} {timestamp : ℕ} {nonce : String}
    (h : (fields.map Prod.fst).Nodup) (htime : ("timestamp", .number timestamp) ∈ fields)
    (hnonce : ("nonce", .text nonce) ∈ fields) :
    Describes hmac ⟨purpose, tokenOf hmac fields, timestamp, nonce⟩ :=
  ⟨_, openToken_tokenOf h, property_fields h htime, property_fields h hnonce⟩

theorem nodup_stateFields (data : OAuthStateData) : (data.fields.map Prod.fst).Nodup := by
  unfold OAuthStateData.fields
  cases data.userId with
  | none =>
      show ["mode", "redirect", "timestamp", "nonce"].Nodup
      decide
  | some userId =>
      show ["mode", "redirect", "timestamp", "nonce", "userId"].Nodup
      decide

theorem nodup_loginFields (data : OAuthLoginCodeData) : (data.fields.map Prod.fst).Nodup := by
  show ["userId", "username", "role", "timestamp", "nonce"].Nodup
  decide

end Codec

/-! ## The invariant -/

/-- What has been issued for a use. -/
def IssuedFor (w : OAuthWorld) (use : TokenUse) (i : OAuthToken) : Prop :=
  i ∈ w.issued ∧ i.purpose = use.purpose ∧ i.token = use.token ∧ use.nonce = jsText i.nonce ∧
    (use.purpose = .state → use.browserNonce = some i.nonce)

structure OAuthInv (hmac : List UInt8 → List UInt8) (w : OAuthWorld) : Prop where
  issued : ∀ i ∈ w.issued, Describes hmac i ∧ i.timestamp ≤ w.clock
  calls : ∀ use, some use ∈ w.calls → ∃ i, IssuedFor w use i
  accepted : ∀ a ∈ w.accepted, a.time ≤ w.clock ∧
    (∃ i, IssuedFor w a.toTokenUse i ∧ i.timestamp ≤ a.time ∧
      a.time ≤ i.timestamp + a.purpose.ttl) ∧
    ∃ m ∈ w.markers, m.key = a.purpose.markerKey a.nonce ∧ a.time + a.purpose.ttl ≤ m.expiresAt
  once : (w.accepted.map fun a => (a.purpose, a.token)).Nodup

section Invariant

variable {hmac : List UInt8 → List UInt8} {js : JsConversions} {w w' : OAuthWorld}
  {event : OAuthEvent} {i j : OAuthToken} {use : TokenUse} {k : ℕ} {data : Value}

theorem OAuthInv.safe (h : OAuthInv hmac w) : OAuthTokensSafe w where
  own a ha := by
    obtain ⟨-, ⟨i, ⟨hi, hpurpose, htoken, -, hbrowser⟩, hfrom, hto⟩, -⟩ := h.accepted a ha
    exact ⟨i, hi, hpurpose, htoken, hfrom, hto, hbrowser⟩
  once := h.once

/-- A token says when it was issued and with which nonce. -/
theorem Describes.unique (hi : Describes hmac i) (hj : Describes hmac j) (he : i.token = j.token) :
    i.timestamp = j.timestamp ∧ i.nonce = j.nonce := by
  obtain ⟨ps, hopen, htime, hnonce⟩ := hi.opened
  obtain ⟨qs, hopen', htime', hnonce'⟩ := hj.opened
  rw [he, hopen'] at hopen
  obtain rfl : qs = ps := by simpa using hopen
  rw [htime] at htime'
  rw [hnonce] at hnonce'
  constructor
  · exact Delimited.toDigits_inj.mp (by simpa using htime')
  · exact jsText_injective (by simpa using hnonce')

theorem isSigned_of_open (h : openToken hmac i.token = some data) : isSigned hmac i.token = true := by
  unfold openToken at h
  unfold isSigned
  split at h
  · split at h
    · rename_i hsigned
      exact hsigned
    · cases h
  · cases h

theorem isSigned_of_ne_none {token : List Char} (h : openToken hmac token ≠ none) :
    isSigned hmac token = true := by
  obtain ⟨data, hdata⟩ := Option.ne_none_iff_exists'.mp h
  exact isSigned_of_open (i := ⟨.state, token, 0, ""⟩) hdata

/-- The age of a token that says when it was issued. -/
theorem isStale_of_timestamp {now ttl timestamp : ℕ}
    (h : property "timestamp" data = some (.number (Nat.toDigits 10 timestamp))) :
    isStale js data now ttl = decide (timestamp + ttl < now) := by
  rw [isStale, h]
  simp only [naturalOf_toDigits]

/-- A state that passes its checks: the nonce is the browser's and it is young enough. -/
theorem Describes.checkOAuthState (hi : Describes hmac i) {now : ℕ} {expectedNonce : String}
    {nonce : List JsChar} (h : checkOAuthState hmac js now i.token expectedNonce = some nonce) :
    nonce = jsText i.nonce ∧ i.nonce = expectedNonce ∧ ¬i.timestamp + OAUTH_STATE_TTL_MS < now := by
  obtain ⟨ps, hopen, htime, hnonce⟩ := hi.opened
  simp only [Incudal.checkOAuthState, hopen, hnonce, isStale_of_timestamp htime,
    Option.ite_none_left_eq_some, Option.ite_none_right_eq_some, Option.some.injEq,
    decide_eq_true_eq] at h
  obtain ⟨-, hstale, he, rfl⟩ := h
  exact ⟨rfl, jsText_injective he, hstale⟩

theorem Describes.checkOAuthLoginCode (hi : Describes hmac i) {now : ℕ} {nonce : List JsChar}
    (h : checkOAuthLoginCode hmac js now i.token = some nonce) :
    nonce = jsText i.nonce ∧ ¬i.timestamp + OAUTH_LOGIN_CODE_TTL_MS < now := by
  obtain ⟨ps, hopen, htime, hnonce⟩ := hi.opened
  simp only [Incudal.checkOAuthLoginCode, hopen, hnonce, isStale_of_timestamp htime,
    Option.ite_none_left_eq_some, Option.some.injEq, decide_eq_true_eq] at h
  exact ⟨h.2.symm, h.1⟩

/-- A state that is young enough passes with its nonce, and for a login code too. -/
theorem Describes.passes_state (hi : Describes hmac i) {now : ℕ} (hnonempty : i.nonce ≠ "")
    (hyoung : now ≤ i.timestamp + OAUTH_STATE_TTL_MS) :
    Incudal.checkOAuthState hmac js now i.token i.nonce = some (jsText i.nonce) := by
  obtain ⟨ps, hopen, htime, hnonce⟩ := hi.opened
  simp only [Incudal.checkOAuthState, hopen, hnonce, isStale_of_timestamp htime, if_neg hnonempty,
    decide_eq_true_eq, if_neg (not_lt.mpr hyoung), if_true]

theorem Describes.passes_login (hi : Describes hmac i) {now : ℕ}
    (hyoung : now ≤ i.timestamp + OAUTH_LOGIN_CODE_TTL_MS) :
    Incudal.checkOAuthLoginCode hmac js now i.token = some (jsText i.nonce) := by
  obtain ⟨ps, hopen, htime, hnonce⟩ := hi.opened
  simp only [Incudal.checkOAuthLoginCode, hopen, hnonce, isStale_of_timestamp htime,
    decide_eq_true_eq, if_neg (not_lt.mpr hyoung)]

/-- A verification that passes its checks waits for its marker. -/
theorem oauthStep_state {token : List Char} {expectedNonce : String} {nonce : List JsChar}
    (h : checkOAuthState hmac js w.clock token expectedNonce = some nonce) :
    oauthStep hmac js w (.verifyAndConsumeOAuthState token expectedNonce) =
      some { w with calls := w.calls ++ [some ⟨.state, token, nonce, some expectedNonce⟩] } := by
  rw [oauthStep, h]
  rfl

theorem oauthStep_login {token : List Char} {nonce : List JsChar}
    (h : checkOAuthLoginCode hmac js w.clock token = some nonce) :
    oauthStep hmac js w (.verifyAndConsumeOAuthLoginCode token) =
      some { w with calls := w.calls ++ [some ⟨.login, token, nonce, none⟩] } := by
  rw [oauthStep, h]
  rfl

/-- What has a signature has been issued. -/
theorem issued_of_unforged {token : List Char} (hopen : openToken hmac token ≠ none)
    (h : (!isSigned hmac token || w.issued.any fun i => i.token == token) = true) :
    ∃ i ∈ w.issued, i.token = token := by
  rw [isSigned_of_ne_none hopen, Bool.not_true, Bool.false_or] at h
  obtain ⟨i, hi, he⟩ := List.any_eq_true.mp h
  exact ⟨i, hi, beq_iff_eq.mp he⟩

theorem open_of_checkOAuthState {now : ℕ} {token : List Char} {expectedNonce : String}
    {nonce : List JsChar} (h : checkOAuthState hmac js now token expectedNonce = some nonce) :
    openToken hmac token ≠ none := by
  intro hnone
  simp [checkOAuthState, hnone] at h

theorem open_of_checkOAuthLoginCode {now : ℕ} {token : List Char} {nonce : List JsChar}
    (h : checkOAuthLoginCode hmac js now token = some nonce) : openToken hmac token ≠ none := by
  intro hnone
  simp [checkOAuthLoginCode, hnone] at h

/-- One more token. -/
theorem OAuthInv.issue (h : OAuthInv hmac w) (hi : Describes hmac i)
    (htime : i.timestamp = w.clock) : OAuthInv hmac { w with issued := w.issued ++ [i] } := by
  have hmore : ∀ {use i'}, IssuedFor w use i' →
      IssuedFor { w with issued := w.issued ++ [i] } use i' :=
    fun hfor => ⟨List.mem_append_left _ hfor.1, hfor.2⟩
  constructor
  · intro i' hi'
    rcases List.mem_append.mp hi' with hold | hnew
    · exact h.issued i' hold
    · rw [List.mem_singleton.mp hnew]
      exact ⟨hi, htime.le⟩
  · intro use huse
    obtain ⟨i', hfor⟩ := h.calls use huse
    exact ⟨i', hmore hfor⟩
  · intro a ha
    obtain ⟨hpast, ⟨i', hfor, hwithin⟩, hmarker⟩ := h.accepted a ha
    exact ⟨hpast, ⟨i', hmore hfor, hwithin⟩, hmarker⟩
  · exact h.once

/-- One more verification, of a token that has been issued for it. -/
theorem OAuthInv.verify (h : OAuthInv hmac w) {call : Option TokenUse}
    (hcall : ∀ use, call = some use → ∃ i, IssuedFor w use i) :
    OAuthInv hmac { w with calls := w.calls ++ [call] } :=
  { h with
    calls := fun use huse => by
      rcases List.mem_append.mp huse with hold | hnew
      · exact h.calls use hold
      · exact hcall use (List.mem_singleton.mp hnew).symm }

theorem OAuthInv.close (h : OAuthInv hmac w) :
    OAuthInv hmac { w with calls := w.calls.set k none } :=
  { h with
    calls := fun use huse => by
      rcases List.mem_or_eq_of_mem_set huse with hold | hnew
      · exact h.calls use hold
      · cases hnew }

/-- The markers of the two purposes have different keys. -/
theorem markerKey_purpose {p q : TokenPurpose} {n m : List JsChar}
    (h : p.markerKey n = q.markerKey m) : p = q := by
  have hletter := congrArg (fun l : List JsChar => l[6]?) h
  cases p <;> cases q
  · rfl
  · exact absurd hletter (by simp [TokenPurpose.markerKey, jsText])
  · exact absurd hletter (by simp [TokenPurpose.markerKey, jsText])
  · rfl

/-- A verification that finds no marker: its token has not been accepted before, since the marker
of that would still be there. -/
theorem OAuthInv.addOnce (h : OAuthInv hmac w) (hcall : w.calls[k]? = some (some use))
    (hok : ∀ i ∈ w.issued, i.token = use.token → w.clock ≤ i.timestamp + use.purpose.ttl) :
    OAuthInv hmac (w.addOnce k use) := by
  obtain ⟨i, hfor⟩ := h.calls use (List.mem_of_getElem? hcall)
  obtain ⟨hi, hpurpose, htoken, hnonce, hbrowser⟩ := hfor
  simp only [OAuthWorld.addOnce]
  split
  · exact h.close
  · rename_i hfree
    have hfree : ∀ m ∈ w.markers, m.key = use.purpose.markerKey use.nonce →
        m.expiresAt < w.clock := by
      intro m hm hkey
      by_contra hle
      refine hfree (List.any_eq_true.mpr ⟨m, hm, ?_⟩)
      rw [Bool.and_eq_true, beq_iff_eq, decide_eq_true_eq]
      exact ⟨hkey, not_lt.mp hle⟩
    constructor
    · exact h.issued
    · intro use' huse'
      rcases List.mem_or_eq_of_mem_set huse' with hold | hnew
      · exact h.calls use' hold
      · cases hnew
    · intro a ha
      rcases List.mem_append.mp ha with ha | ha
      · obtain ⟨hpast, hissued, m, hm, hkey, hlong⟩ := h.accepted a ha
        refine ⟨hpast, hissued, ?_⟩
        by_cases hsame : m.key = use.purpose.markerKey use.nonce
        · refine ⟨_, List.mem_append_right _ List.mem_cons_self, hsame ▸ hkey, ?_⟩
          rw [markerKey_purpose (hkey.symm.trans hsame)]
          exact Nat.add_le_add_right hpast _
        · refine ⟨m, List.mem_append_left _ (List.mem_filter.mpr ⟨hm, ?_⟩), hkey, hlong⟩
          exact bne_iff_ne.mpr hsame
      · rw [List.mem_singleton.mp ha]
        refine ⟨le_rfl, ⟨i, ⟨hi, hpurpose, htoken, hnonce, hbrowser⟩, (h.issued i hi).2,
          hok i hi htoken⟩, ?_⟩
        exact ⟨_, List.mem_append_right _ List.mem_cons_self, rfl, le_rfl⟩
    · show ((w.accepted ++ _).map _).Nodup
      rw [List.map_append, List.map_singleton]
      refine List.nodup_append.mpr ⟨h.once, List.nodup_singleton _, fun x hx y hy => ?_⟩
      obtain ⟨a, ha, rfl⟩ := List.mem_map.mp hx
      rw [List.mem_singleton.mp hy]
      intro he
      obtain ⟨hp, ht⟩ := Prod.mk.inj he
      obtain ⟨-, ⟨j, ⟨hj, -, hjtoken, hjnonce, -⟩, hfrom, -⟩, m, hm, hkey, hlong⟩ :=
        h.accepted a ha
      obtain ⟨htime, hn⟩ := (h.issued i hi).1.unique (h.issued j hj).1
        (htoken.trans (ht.symm.trans hjtoken.symm))
      have hmarker : m.expiresAt < w.clock := by
        refine hfree m hm ?_
        rw [hkey, hp, hjnonce, hnonce, hn]
      have hlate := hok i hi htoken
      have hlong' : a.time + use.purpose.ttl ≤ m.expiresAt := by
        rw [← show a.purpose = use.purpose from hp]
        exact hlong
      omega

theorem OAuthInv.step (h : OAuthInv hmac w) (hunforged : unforged hmac w event = true)
    (hok : keepsPurpose w event = true) (hs : oauthStep hmac js w event = some w') :
    OAuthInv hmac w' := by
  cases event with
  | generateOAuthState mode redirect userId nonce =>
      obtain rfl := Option.some.inj hs
      exact h.issue (describes_tokenOf (nodup_stateFields _) (by simp [OAuthStateData.fields])
        (by simp [OAuthStateData.fields])) rfl
  | generateOAuthLoginCode userId username role nonce =>
      obtain rfl := Option.some.inj hs
      exact h.issue (describes_tokenOf (nodup_loginFields _) (by simp [OAuthLoginCodeData.fields])
        (by simp [OAuthLoginCodeData.fields])) rfl
  | verifyAndConsumeOAuthState token expectedNonce =>
      obtain rfl := Option.some.inj hs
      refine h.verify fun use huse => ?_
      obtain ⟨nonce, hcheck, rfl⟩ := Option.map_eq_some_iff.mp huse
      obtain ⟨i, hi, rfl⟩ := issued_of_unforged (open_of_checkOAuthState hcheck) hunforged
      obtain ⟨rfl, rfl, hyoung⟩ := (h.issued i hi).1.checkOAuthState hcheck
      have hpurpose := List.all_eq_true.mp hok i hi
      simp only [Bool.or_eq_true, beq_iff_eq, bne_iff_ne, ne_eq, not_true_eq_false, or_false,
        decide_eq_true_eq] at hpurpose
      exact ⟨i, hi, hpurpose.resolve_right hyoung, rfl, rfl, fun _ => rfl⟩
  | verifyAndConsumeOAuthLoginCode token =>
      obtain rfl := Option.some.inj hs
      refine h.verify fun use huse => ?_
      obtain ⟨nonce, hcheck, rfl⟩ := Option.map_eq_some_iff.mp huse
      obtain ⟨i, hi, rfl⟩ := issued_of_unforged (open_of_checkOAuthLoginCode hcheck) hunforged
      obtain ⟨rfl, hyoung⟩ := (h.issued i hi).1.checkOAuthLoginCode hcheck
      have hpurpose := List.all_eq_true.mp hok i hi
      simp only [Bool.or_eq_true, beq_iff_eq, bne_iff_ne, ne_eq, not_true_eq_false, or_false,
        decide_eq_true_eq] at hpurpose
      exact ⟨i, hi, hpurpose.resolve_right hyoung, rfl, rfl, nofun⟩
  | addOnce k =>
      simp only [oauthStep] at hs
      split at hs
      · rename_i use hcall
        obtain rfl := Option.some.inj hs
        refine h.addOnce hcall fun i hi htoken => ?_
        simp only [keepsPurpose, hcall] at hok
        have hlate := List.all_eq_true.mp hok i hi
        rw [Bool.or_eq_true, bne_iff_ne, decide_eq_true_eq] at hlate
        exact hlate.resolve_left (not_not.mpr htoken)
      · cases hs
  | fail k =>
      obtain rfl := Option.some.inj hs
      exact h.close
  | tick now =>
      simp only [oauthStep, Option.ite_none_right_eq_some, Option.some.injEq] at hs
      obtain ⟨hle, rfl⟩ := hs
      constructor
      · exact fun i hi => ⟨(h.issued i hi).1, (h.issued i hi).2.trans hle⟩
      · exact h.calls
      · exact fun a ha => ⟨(h.accepted a ha).1.trans hle, (h.accepted a ha).2⟩
      · exact h.once

/-- In every run without forged signatures whose steps keep the tokens to their purpose, each is
accepted for that alone, in time and once. -/
theorem oauth_tokens_safe {clock : ℕ}
    (h : Machine.Reach (oauthStep hmac js)
      (fun w event => unforged hmac w event = true ∧ keepsPurpose w event = true) { clock } w) :
    OAuthTokensSafe w := by
  have hstart : OAuthInv hmac { clock } := ⟨nofun, nofun, nofun, List.nodup_nil⟩
  have hinv : OAuthInv hmac w := h.invariant hstart fun ht hok hs => ht.step hok.1 hok.2 hs
  exact hinv.safe

end Invariant

/-! ### A state, shown as what it is and as a login code -/

/-- The state of a user who binds an account. -/
def settingsState : OAuthStateData where
  mode := .bind
  redirect := "/settings"
  timestamp := 1777380000000
  nonce := "00112233445566778899aabbccddeeff"
  userId := some 7

/-- HMAC-SHA256 of its payload under the development secret. -/
def panelHmac (message : List UInt8) : List UInt8 :=
  if message = Utf8.encode (payloadOf settingsState.fields) then
    [101, 135, 68, 174, 205, 114, 73, 119, 23, 129, 134, 3, 1, 24, 85, 76, 24, 111, 241, 203, 113,
      68, 235, 246, 23, 217, 162, 15, 213, 174, 55, 245]
  else []

def plainConversions : JsConversions where
  stale _ _ _ := false
  shown _ := jsText "undefined"

def settingsToken : OAuthToken where
  purpose := .state
  token := generateOAuthState panelHmac settingsState
  timestamp := 1777380000000
  nonce := "00112233445566778899aabbccddeeff"

theorem describes_settingsToken : Describes panelHmac settingsToken :=
  describes_tokenOf (nodup_stateFields _) (by simp [OAuthStateData.fields, settingsState])
    (by simp [OAuthStateData.fields, settingsState])

/-- The panel when the state has been issued, and a verification has passed its checks. -/
def settingsWorld (clock : ℕ) (calls : List (Option TokenUse)) : OAuthWorld :=
  { clock, calls, issued := [settingsToken] }

theorem settings_unforged {clock : ℕ} {calls : List (Option TokenUse)} :
    unforged panelHmac (settingsWorld clock calls)
        (.verifyAndConsumeOAuthState settingsToken.token settingsToken.nonce) = true ∧
      unforged panelHmac (settingsWorld clock calls)
        (.verifyAndConsumeOAuthLoginCode settingsToken.token) = true := by
  simp [unforged, settingsWorld]

/-- The state as it is meant: after half a minute, with the browser's nonce. -/
def settingsUse : TokenUse where
  purpose := .state
  token := settingsToken.token
  nonce := jsText settingsToken.nonce
  browserNonce := some settingsToken.nonce

theorem oauth_tokens_safe_settings :
    ∃ w : OAuthWorld, w.accepted = [⟨settingsUse, 1777380030000⟩] ∧ OAuthTokensSafe w := by
  have hcheck : checkOAuthState panelHmac plainConversions (settingsWorld 1777380030000 []).clock
      settingsToken.token settingsToken.nonce = some (jsText settingsToken.nonce) :=
    describes_settingsToken.passes_state (by decide) (by decide)
  have hissued : Machine.Reach (oauthStep panelHmac plainConversions) (fun w event =>
      unforged panelHmac w event = true ∧ keepsPurpose w event = true)
      { clock := 1777380000000 } (settingsWorld 1777380030000 []) :=
    .tail (i := .tick 1777380030000) (.tail (i := .generateOAuthState .bind "/settings" (some 7)
      "00112233445566778899aabbccddeeff") .refl ⟨rfl, rfl⟩ rfl) ⟨rfl, rfl⟩ rfl
  have hverified := hissued.tail
    ⟨settings_unforged.1, by simp [keepsPurpose, settingsWorld, settingsToken]⟩
    (oauthStep_state hcheck)
  have hadded := hverified.tail (i := .addOnce 0)
    (u := (settingsWorld 1777380030000 [some settingsUse]).addOnce 0 settingsUse)
    ⟨rfl, by simp [keepsPurpose, settingsWorld, settingsToken, TokenPurpose.ttl,
      OAUTH_STATE_TTL_MS]⟩ rfl
  exact ⟨_, rfl, oauth_tokens_safe hadded⟩

/-- As a login code it is accepted as well. -/
theorem state_taken_for_login_code :
    ∃ w, Machine.Reach (oauthStep panelHmac plainConversions)
        (fun w event => unforged panelHmac w event = true) { clock := 1777380000000 } w ∧
      ¬OAuthTokensSafe w := by
  let use : TokenUse := ⟨.login, settingsToken.token, jsText settingsToken.nonce, none⟩
  have hcheck : checkOAuthLoginCode panelHmac plainConversions
      (settingsWorld 1777380000000 []).clock settingsToken.token =
        some (jsText settingsToken.nonce) := describes_settingsToken.passes_login (by decide)
  have hissued : Machine.Reach (oauthStep panelHmac plainConversions)
      (fun w event => unforged panelHmac w event = true)
      { clock := 1777380000000 } (settingsWorld 1777380000000 []) :=
    .tail (i := .generateOAuthState .bind "/settings" (some 7)
      "00112233445566778899aabbccddeeff") .refl rfl rfl
  have hverified := hissued.tail settings_unforged.2 (oauthStep_login hcheck)
  have hadded := hverified.tail (i := .addOnce 0)
    (u := (settingsWorld 1777380000000 [some use]).addOnce 0 use) rfl rfl
  refine ⟨_, hadded, fun hsafe => ?_⟩
  obtain ⟨i, hi, hpurpose, -⟩ := hsafe.own ⟨use, 1777380000000⟩ List.mem_cons_self
  rw [List.mem_singleton.mp hi] at hpurpose
  cases hpurpose

end Incudal
