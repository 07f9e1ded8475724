/-
# `SessionInvalidation` — which access tokens outlive a logout or a password change

The sessions of one user.  A refresh token is a row; an access token is minted
from it and carries the first characters of it as its session, and the second in
which it was minted.  A logout deletes the row and writes a mark for the session,
a password change deletes all rows and writes one for the user; a token minted
up to the second of a mark is rejected.

The second of a mark is taken before it is written, and a refresh mints after it
has verified, so a token of a later second passes (`refresh_outlives_logout`).
Where nothing is minted from a refresh token after it was revoked, the logout
deletes the session's own, no mark is lowered and none is late, no such token is
accepted (`sessions_closed`).
-/
import Incudal.Lib.InsertionMap
import Incudal.Lib.Machine
import Mathlib.Data.List.Basic

namespace Incudal

/-! ## Tables and calls -/

/-- A row of `refresh_tokens`, of the user. -/
structure RefreshTokenRow where
  token : String
  expiresAt : ℕ
deriving DecidableEq, Repr

/-- A signed access token, and the refresh token that it was minted from. -/
structure AccessToken where
  sid : String
  iat : ℕ
  refreshToken : String
deriving DecidableEq, Repr

/-- What has been closed: sessions that a logout has answered for, and the refresh tokens that
there were when a password change committed. -/
structure Closings where
  sids : List String := []
  tokens : List String := []
deriving DecidableEq, Repr

/-- Where a call is, by what it does next.  `loggingIn`, `verifying` to `extending` and `issuing`
are those of a login and a refresh, `revoking` to `answering` those of a logout, `committing` is
that of a password change, `checkingSession` and `checkingUser` those of `authenticate`. -/
inductive SessionCall
  | loggingIn
  | verifying (token : String) | expired (token : String) | extending (token : String)
  | issuing (token : String)
  | revoking (token : String) (sids : List String)
  | marking (todo done : List String)
  | upserting (sid : String) (now : ℕ) (todo done : List String)
  | answering (done : List String)
  | committing (invalidatedAt : ℕ)
  | checkingSession (a : AccessToken) (since : Closings)
  | checkingUser (a : AccessToken) (since : Closings)
  | accepted (a : AccessToken) (since : Closings)
  | rejected
  | issued (a : AccessToken)
  | answered
  | failed
deriving DecidableEq, Repr

structure SessionWorld where
  /-- in milliseconds -/
  clock : ℕ := 0
  rows : List RefreshTokenRow := []
  /-- `token_invalidations`: a second for a session, or for the user -/
  marks : List (String × ℕ) := []
  calls : List SessionCall := []
  minted : List AccessToken := []
  /-- every refresh token there has been, and every session that a logout was for -/
  created : List String := []
  named : List String := []
  closings : Closings := {}
deriving DecidableEq, Repr

inductive SessionEvent
  | login
  | refresh (token : String)
  /-- with the session of the access token and the cookie -/
  | logout (sid cookie : Option String)
  | updateUserPassword
  /-- with a token that was minted -/
  | authenticate (i : ℕ)
  /-- the next statement of a call; `drawn` are the random characters of a new token -/
  | next (k : ℕ) (drawn : String)
  /-- the next statement of a call fails -/
  | fail (k : ℕ)
  | tick (d : ℕ)
deriving DecidableEq, Repr

/-! ## Statements -/

def USER_LEVEL_SESSION_ID : String := "__USER_LEVEL__"

/-- `REFRESH_TOKEN_CONFIG.expiresInSeconds`, in milliseconds. -/
def refreshTokenLifetime : ℕ := 30 * 24 * 60 * 60 * 1000

/-- `expiresIn: '30m'`, in seconds. -/
def accessTokenLifetime : ℕ := 30 * 60

/-- `refreshToken.substring(0, 20)` -/
def sessionIdOf (token : String) : String := String.ofList (token.toList.take 20)

def refreshTokenOf (drawn : String) : String := "rt_" ++ drawn

namespace SessionWorld

variable (w : SessionWorld)

/-- `Math.floor(Date.now() / 1000)` -/
def second : ℕ := w.clock / 1000

def goto (k : ℕ) (call : SessionCall) : SessionWorld := { w with calls := w.calls.set k call }

/-- A mark from which on a token of this second is rejected. -/
def covers (key : String) (iat : ℕ) : Bool :=
  match InsertionMap.get key w.marks with
  | some invalidatedAt => iat ≤ invalidatedAt
  | none => false

/-- `isAccessTokenInvalidated`, both reads at once. -/
def isAccessTokenInvalidated (a : AccessToken) : Bool :=
  w.covers a.sid a.iat || w.covers USER_LEVEL_SESSION_ID a.iat

/-- The access token that is signed now. -/
def sign (token : String) : AccessToken := ⟨sessionIdOf token, w.second, token⟩

def upsertMark (key : String) (now : ℕ) : SessionWorld :=
  { w with marks := InsertionMap.set key now w.marks }

def deleteToken (token : String) : SessionWorld :=
  { w with rows := w.rows.filter fun r => r.token ≠ token }

/-- `generateRefreshToken` -/
def generateRefreshToken (token : String) : SessionWorld :=
  { w with
      rows := w.rows ++ [⟨token, w.clock + refreshTokenLifetime⟩]
      created := w.created ++ [token] }

/-- `updateSessionActivity` -/
def updateSessionActivity (token : String) : SessionWorld :=
  { w with
      rows := w.rows.map fun r =>
        if r.token = token then { r with expiresAt := w.clock + refreshTokenLifetime } else r }

/-- The transaction of `updateUserPasswordAndInvalidateSessions`. -/
def updatePassword (invalidatedAt : ℕ) : SessionWorld :=
  { w.upsertMark USER_LEVEL_SESSION_ID invalidatedAt with
      rows := [], closings := { w.closings with tokens := w.created } }

/-- What `verifyRefreshToken` finds. -/
def verify (token : String) : SessionCall :=
  match w.rows.find? fun r => r.token = token with
  | none => .failed
  | some r => if r.expiresAt < w.clock then .expired token else .extending token

/-- The next statement of a call. -/
def next (k : ℕ) (drawn : String) : Option SessionWorld :=
  match w.calls[k]? with
  | some .loggingIn =>
      let token := refreshTokenOf drawn
      some ((w.generateRefreshToken token).goto k (.issuing token))
  | some (.verifying token) => some (w.goto k (w.verify token))
  | some (.expired token) => some ((w.deleteToken token).goto k .failed)
  | some (.extending token) => some ((w.updateSessionActivity token).goto k (.issuing token))
  | some (.issuing token) =>
      some ({ w with minted := w.minted ++ [w.sign token] }.goto k (.issued (w.sign token)))
  | some (.revoking token sids) => some ((w.deleteToken token).goto k (.marking sids []))
  | some (.marking [] done) => some (w.goto k (.answering done))
  | some (.marking (sid :: todo) done) => some (w.goto k (.upserting sid w.second todo done))
  | some (.upserting sid now todo done) =>
      some ((w.upsertMark sid now).goto k (.marking todo (done ++ [sid])))
  | some (.answering done) =>
      some ({ w with closings := { w.closings with sids := w.closings.sids ++ done } }.goto k
        .answered)
  | some (.committing invalidatedAt) => some ((w.updatePassword invalidatedAt).goto k .answered)
  | some (.checkingSession a since) =>
      some (w.goto k (if w.covers a.sid a.iat then .rejected else .checkingUser a since))
  | some (.checkingUser a since) =>
      some (w.goto k
        (if w.covers USER_LEVEL_SESSION_ID a.iat then .rejected else .accepted a since))
  | _ => none

/-- Where a call goes when its statement fails; `updateSessionActivity` swallows the error. -/
def failing (k : ℕ) : SessionCall :=
  match w.calls[k]? with
  | some (.extending token) => .issuing token
  | _ => .failed

/-- The sessions that a logout is for. -/
def sessionIdsToInvalidate (sid cookie : Option String) : List String :=
  ((cookie.map sessionIdOf).toList ++ sid.toList).eraseDups

end SessionWorld

/-- One statement of one call, a new call or the time.  A header that is empty is none. -/
def sessionStep (w : SessionWorld) : SessionEvent → Option SessionWorld
  | .login => some { w with calls := w.calls ++ [.loggingIn] }
  | .refresh token => some { w with calls := w.calls ++ [.verifying token] }
  | .logout sid cookie =>
      let cookie := cookie.filter (· ≠ "")
      let sids := SessionWorld.sessionIdsToInvalidate (sid.filter (· ≠ "")) cookie
      some { w with
        named := w.named ++ sids
        calls := w.calls ++ [match cookie with
          | some token => .revoking token sids
          | none => .marking sids []] }
  | .updateUserPassword => some { w with calls := w.calls ++ [.committing w.second] }
  | .authenticate i =>
      w.minted[i]?.map fun a => { w with
        calls := w.calls ++ [if a.iat ≠ 0 ∧ w.second < a.iat + accessTokenLifetime
          then .checkingSession a w.closings else .rejected] }
  | .next k drawn => w.next k drawn
  | .fail k => some (w.goto k (w.failing k))
  | .tick d => some { w with clock := w.clock + d }

/-! ## What is promised, and when it is kept -/

/-- An access token that is to be accepted no more. -/
def AccessToken.ClosedBy (a : AccessToken) (c : Closings) : Prop :=
  a.sid ∈ c.sids ∨ a.refreshToken ∈ c.tokens

/-- A token of a closed session, or from a refresh token older than a password change, is
invalid, whenever it was minted; and no call of `authenticate` accepts one that was closed when
the call began. -/
structure SessionsClosed (w : SessionWorld) : Prop where
  invalid : ∀ a ∈ w.minted, a.ClosedBy w.closings → w.isAccessTokenInvalidated a = true
  refused : ∀ a since, SessionCall.accepted a since ∈ w.calls → ¬a.ClosedBy since

/-- The mark that is written is not below the one that is there. -/
def SessionWorld.raises (w : SessionWorld) (key : String) (now : ℕ) : Bool :=
  match InsertionMap.get key w.marks with
  | some invalidatedAt => invalidatedAt ≤ now
  | none => true

/-- The steps that keep the promise.  New refresh tokens differ from all others in their first
characters; an access token is minted while its refresh token is there, or is invalid at once;
no refresh token of a session is left when a logout takes the second for its mark; no mark is
lowered; and a password change commits before a valid token of a later second is minted. -/
def revocationsHold (w : SessionWorld) : SessionEvent → Bool
  | .next k drawn =>
      match w.calls[k]? with
      | some .loggingIn =>
          sessionIdOf (refreshTokenOf drawn) ∉ w.created.map sessionIdOf ++ w.named
      | some (.issuing token) =>
          w.rows.any (fun r => r.token = token) || w.isAccessTokenInvalidated (w.sign token)
      | some (.marking (sid :: _) _) => w.rows.all fun r => sessionIdOf r.token ≠ sid
      | some (.upserting sid now _ _) => w.raises sid now
      | some (.committing invalidatedAt) =>
          w.raises USER_LEVEL_SESSION_ID invalidatedAt &&
            w.minted.all fun a => a.iat ≤ invalidatedAt || w.isAccessTokenInvalidated a
      | _ => true
  | _ => true

/-! ## Marks -/

namespace SessionWorld

variable {w w' : SessionWorld} {key key' sid : String} {now iat k : ℕ} {c c' : SessionCall}

theorem covers_upsertMark_self (h : iat ≤ now) : (w.upsertMark key now).covers key iat = true := by
  simp [covers, upsertMark, InsertionMap.get_set, h]

/-- A mark that is not lowered covers what it has covered. -/
theorem covers_upsertMark (hr : w.raises key now = true) (h : w.covers key' iat = true) :
    (w.upsertMark key now).covers key' iat = true := by
  by_cases hk : key' = key
  · subst hk
    refine covers_upsertMark_self ?_
    simp only [covers] at h
    simp only [raises] at hr
    split at h
    · rename_i invalidatedAt hget
      simp only [hget, decide_eq_true_eq] at h hr
      exact h.trans hr
    · cases h
  · simpa [covers, upsertMark, InsertionMap.get_set, hk] using h

theorem mem_calls_goto (h : c ∈ (w.goto k c').calls) : c ∈ w.calls ∨ c = c' :=
  List.mem_or_eq_of_mem_set h

end SessionWorld

/-! ## What later states keep -/

/-- What a state may differ in from an earlier one: marks cover no less, refresh tokens are old
or new in their first characters, and an access token is minted while its refresh token is
there or is invalid. -/
structure SessionWorld.Later (w w' : SessionWorld) : Prop where
  covers : ∀ key iat, w.covers key iat = true → w'.covers key iat = true
  rows : ∀ r' ∈ w'.rows, (∃ r ∈ w.rows, r.token = r'.token) ∨
    sessionIdOf r'.token ∉ w.created.map sessionIdOf ++ w.named
  minted : ∀ a ∈ w'.minted, a ∈ w.minted ∨
    (a.sid = sessionIdOf a.refreshToken ∧ a.iat ≤ w'.second ∧
      ((∃ r ∈ w.rows, r.token = a.refreshToken) ∨ w'.isAccessTokenInvalidated a = true))
  second : w.second ≤ w'.second
  created : w.created ⊆ w'.created
  named : w.named ⊆ w'.named
  kept : w.minted ⊆ w'.minted
  sids : w.closings.sids ⊆ w'.closings.sids
  tokens : w.closings.tokens ⊆ w'.closings.tokens

/-- Refresh tokens of a kind are gone and not drawn again, and an access token from one of them
is invalid, or older than a second. -/
structure SessionWorld.Revoked (w : SessionWorld) (kind : String → Prop) (upTo : ℕ) : Prop where
  taken : ∀ t, kind t → sessionIdOf t ∈ w.created.map sessionIdOf ++ w.named
  gone : ∀ r ∈ w.rows, ¬kind r.token
  dead : ∀ a ∈ w.minted, kind a.refreshToken →
    a.iat < upTo ∨ w.isAccessTokenInvalidated a = true

/-- The refresh tokens of a session. -/
def OfSession (sid token : String) : Prop := sessionIdOf token = sid

namespace SessionWorld

variable {w w' : SessionWorld} {kind : String → Prop} {upTo : ℕ} {a : AccessToken}

theorem Later.isAccessTokenInvalidated (h : Later w w')
    (ha : w.isAccessTokenInvalidated a = true) : w'.isAccessTokenInvalidated a = true := by
  simp only [SessionWorld.isAccessTokenInvalidated, Bool.or_eq_true] at ha ⊢
  exact ha.imp (h.covers _ _) (h.covers _ _)

theorem Later.taken (h : Later w w') {sid : String}
    (hs : sid ∈ w.created.map sessionIdOf ++ w.named) :
    sid ∈ w'.created.map sessionIdOf ++ w'.named := by
  rcases List.mem_append.mp hs with hc | hn
  · exact List.mem_append_left _ (List.map_subset _ h.created hc)
  · exact List.mem_append_right _ (h.named hn)

/-- What is revoked stays so. -/
theorem Revoked.later (hv : w.Revoked kind upTo) (h : Later w w') : w'.Revoked kind upTo where
  taken := fun t ht => h.taken (hv.taken t ht)
  gone := by
    intro r' hr' hk
    rcases h.rows r' hr' with ⟨r, hr, htoken⟩ | hfresh
    · exact hv.gone r hr (htoken ▸ hk)
    · exact hfresh (hv.taken _ hk)
  dead := by
    intro a ha hk
    rcases h.minted a ha with hold | ⟨-, -, ⟨r, hr, htoken⟩ | hinv⟩
    · exact (hv.dead a hold hk).imp_right h.isAccessTokenInvalidated
    · exact absurd (htoken ▸ hk) (hv.gone r hr)
    · exact .inr hinv

end SessionWorld

/-! ## What a call knows -/

/-- What was closed when a call began is closed. -/
def Closings.Old (since : Closings) (w : SessionWorld) : Prop :=
  since.sids ⊆ w.closings.sids ∧ since.tokens ⊆ w.closings.tokens

/-- What a call has found or done, and still holds. -/
def SessionCall.Knows (w : SessionWorld) : SessionCall → Prop
  | .revoking _ sids => ∀ sid ∈ sids, sid ∈ w.named
  | .marking todo done =>
      (∀ sid ∈ todo, sid ∈ w.named) ∧ ∀ sid ∈ done, w.Revoked (OfSession sid) 0
  | .upserting sid now todo done =>
      w.Revoked (OfSession sid) (now + 1) ∧ (∀ sid ∈ todo, sid ∈ w.named) ∧
        ∀ sid ∈ done, w.Revoked (OfSession sid) 0
  | .answering done => ∀ sid ∈ done, w.Revoked (OfSession sid) 0
  | .checkingSession a since => a ∈ w.minted ∧ since.Old w
  | .checkingUser a since => a ∈ w.minted ∧
      (a.ClosedBy since → w.covers USER_LEVEL_SESSION_ID a.iat = true)
  | .accepted a since => ¬a.ClosedBy since
  | _ => True

theorem SessionCall.Knows.later {w w' : SessionWorld} {c : SessionCall} (hc : c.Knows w)
    (h : w.Later w') : c.Knows w' := by
  cases c with
  | revoking token sids => exact fun sid hs => h.named (hc sid hs)
  | marking todo done =>
      exact ⟨fun sid hs => h.named (hc.1 sid hs), fun sid hs => (hc.2 sid hs).later h⟩
  | upserting sid now todo done =>
      exact ⟨hc.1.later h, fun sid hs => h.named (hc.2.1 sid hs),
        fun sid hs => (hc.2.2 sid hs).later h⟩
  | answering done => exact fun sid hs => (hc sid hs).later h
  | checkingSession a since =>
      exact ⟨h.kept hc.1, List.Subset.trans hc.2.1 h.sids, List.Subset.trans hc.2.2 h.tokens⟩
  | checkingUser a since => exact ⟨h.kept hc.1, fun ha => h.covers _ _ (hc.2 ha)⟩
  | accepted a since => exact hc
  | _ => trivial

/-! ## The invariant -/

structure SessionInv (w : SessionWorld) : Prop where
  minted : ∀ a ∈ w.minted, a.sid = sessionIdOf a.refreshToken ∧ a.iat ≤ w.second
  old : w.closings.tokens ⊆ w.created
  sids : ∀ sid ∈ w.closings.sids, w.Revoked (OfSession sid) 0
  tokens : w.Revoked (· ∈ w.closings.tokens) 0
  calls : ∀ c ∈ w.calls, c.Knows w

namespace SessionWorld

variable {w w' : SessionWorld} {kind : String → Prop} {a : AccessToken} {k : ℕ}
  {call : SessionCall}

/-- From a state to a later one: only what is closed by the step and what its call knows is
left to show. -/
theorem Later.inv (h : Later w w') (hi : SessionInv w) (hold : w'.closings.tokens ⊆ w'.created)
    (hs : ∀ sid ∈ w'.closings.sids, sid ∈ w.closings.sids ∨ w'.Revoked (OfSession sid) 0)
    (ht : w'.closings.tokens = w.closings.tokens ∨ w'.Revoked (· ∈ w'.closings.tokens) 0)
    (hc : ∀ c ∈ w'.calls, c ∈ w.calls ∨ c.Knows w') : SessionInv w' where
  minted := by
    intro a ha
    rcases h.minted a ha with hm | ⟨hsid, hiat, -⟩
    · exact ⟨(hi.minted a hm).1, (hi.minted a hm).2.trans h.second⟩
    · exact ⟨hsid, hiat⟩
  old := hold
  sids := fun sid hsid => (hs sid hsid).elim (fun h' => (hi.sids sid h').later h) id
  tokens := by
    rcases ht with heq | hv
    · rw [heq]
      exact hi.tokens.later h
    · exact hv
  calls := fun c hc' => (hc c hc').elim (fun h' => (hi.calls c h').later h) id

/-- The same for a step that closes nothing. -/
theorem Later.inv_of_same (h : Later w w') (hi : SessionInv w) (heq : w'.closings = w.closings)
    (hc : ∀ c ∈ w'.calls, c ∈ w.calls ∨ c.Knows w') : SessionInv w' :=
  h.inv hi (heq ▸ List.Subset.trans hi.old h.created) (fun _ hs => .inl (heq ▸ hs))
    (.inl (by rw [heq])) hc

/-- A token of a closed session, or from a closed refresh token, is invalid. -/
theorem invalid_of_closedBy (hi : SessionInv w) (ha : a ∈ w.minted)
    (hc : a.ClosedBy w.closings) : w.isAccessTokenInvalidated a = true := by
  rcases hc with hsid | htoken
  · have hkind : OfSession a.sid a.refreshToken := (hi.minted a ha).1.symm
    exact ((hi.sids a.sid hsid).dead a ha hkind).resolve_left (Nat.not_lt_zero _)
  · exact (hi.tokens.dead a ha htoken).resolve_left (Nat.not_lt_zero _)

/-! ### Statements -/

theorem Later.refl (w : SessionWorld) : Later w w where
  covers := fun _ _ h => h
  rows := fun r hr => .inl ⟨r, hr, rfl⟩
  minted := fun _ h => .inl h
  second := le_rfl
  created := List.Subset.refl _
  named := List.Subset.refl _
  kept := List.Subset.refl _
  sids := List.Subset.refl _
  tokens := List.Subset.refl _

/-- Where a call is does not matter. -/
theorem Later.goto (h : Later w w') : Later w (w'.goto k call) := { h with }

theorem Later.of_fewer_rows {rows : List RefreshTokenRow}
    (h : ∀ r' ∈ rows, ∃ r ∈ w.rows, r.token = r'.token) : Later w { w with rows := rows } :=
  { Later.refl w with rows := fun r' hr' => .inl (h r' hr') }

theorem later_deleteToken (token : String) : Later w (w.deleteToken token) :=
  .of_fewer_rows fun r hr => ⟨r, (List.mem_filter.mp hr).1, rfl⟩

theorem later_updateSessionActivity (token : String) :
    Later w (w.updateSessionActivity token) := by
  refine .of_fewer_rows fun r' hr' => ?_
  obtain ⟨r, hr, rfl⟩ := List.mem_map.mp hr'
  refine ⟨r, hr, ?_⟩
  split <;> rfl

theorem later_generateRefreshToken {token : String}
    (hfresh : sessionIdOf token ∉ w.created.map sessionIdOf ++ w.named) :
    Later w (w.generateRefreshToken token) :=
  { Later.refl w with
    rows := by
      intro r hr
      rcases List.mem_append.mp hr with hr | hr
      · exact .inl ⟨r, hr, rfl⟩
      · obtain rfl := List.mem_singleton.mp hr
        exact .inr hfresh
    created := List.subset_append_left _ _ }

theorem later_mint {token : String}
    (h : (∃ r ∈ w.rows, r.token = token) ∨ w.isAccessTokenInvalidated (w.sign token) = true) :
    Later w { w with minted := w.minted ++ [w.sign token] } :=
  { Later.refl w with
    minted := by
      intro a ha
      rcases List.mem_append.mp ha with ha | ha
      · exact .inl ha
      · obtain rfl := List.mem_singleton.mp ha
        exact .inr ⟨rfl, le_rfl, h⟩
    kept := List.subset_append_left _ _ }

theorem later_upsertMark {key : String} {now : ℕ} (hr : w.raises key now = true) :
    Later w (w.upsertMark key now) :=
  { Later.refl w with
    covers := fun _ _ h => covers_upsertMark hr h
    minted := fun _ h => .inl h }

theorem later_updatePassword {invalidatedAt : ℕ} (hi : SessionInv w)
    (hr : w.raises USER_LEVEL_SESSION_ID invalidatedAt = true) :
    Later w (w.updatePassword invalidatedAt) :=
  { later_upsertMark hr with
    rows := by simp [updatePassword]
    tokens := hi.old }

/-- With the mark, the tokens of the session up to the second are invalid. -/
theorem revoked_upsertMark {sid : String} {now : ℕ} (hi : SessionInv w)
    (hr : w.raises sid now = true) (hv : w.Revoked (OfSession sid) (now + 1)) :
    (w.upsertMark sid now).Revoked (OfSession sid) 0 where
  taken := hv.taken
  gone := hv.gone
  dead := by
    intro a ha hk
    refine .inr ?_
    rcases hv.dead a ha hk with hlt | hinv
    · have hsid : a.sid = sid := (hi.minted a ha).1.trans hk
      have hcover : (w.upsertMark sid now).covers sid a.iat = true :=
        covers_upsertMark_self (Nat.le_of_lt_succ hlt)
      simp [isAccessTokenInvalidated, hsid, hcover]
    · exact (later_upsertMark hr).isAccessTokenInvalidated hinv

/-- A committed password change closes all refresh tokens there are. -/
theorem revoked_updatePassword {invalidatedAt : ℕ} (hi : SessionInv w)
    (hr : w.raises USER_LEVEL_SESSION_ID invalidatedAt = true)
    (hm : ∀ a ∈ w.minted, a.iat ≤ invalidatedAt ∨ w.isAccessTokenInvalidated a = true) :
    (w.updatePassword invalidatedAt).Revoked (· ∈ w.created) 0 where
  taken := fun t ht => List.mem_append_left _ (List.mem_map_of_mem ht)
  gone := by simp [updatePassword]
  dead := by
    intro a ha _
    refine .inr ?_
    rcases hm a ha with hle | hinv
    · have hcover :
          (w.upsertMark USER_LEVEL_SESSION_ID invalidatedAt).covers USER_LEVEL_SESSION_ID a.iat =
            true := covers_upsertMark_self hle
      exact Bool.or_eq_true_iff.mpr (.inr hcover)
    · exact (later_updatePassword hi hr).isAccessTokenInvalidated hinv

theorem Later.goto_inv (h : Later w w') (hi : SessionInv w) (heq : w'.closings = w.closings)
    (hcalls : w'.calls = w.calls) (hk : call.Knows w') : SessionInv (w'.goto k call) := by
  refine h.goto.inv_of_same hi heq fun c hc => ?_
  rcases mem_calls_goto hc with hold | rfl
  · exact .inl (hcalls ▸ hold)
  · exact .inr (hk.later (Later.refl w').goto)

/-! ### Steps -/

theorem next_inv {drawn : String} (hi : SessionInv w)
    (hok : revocationsHold w (.next k drawn) = true) (h : w.next k drawn = some w') :
    SessionInv w' := by
  cases hcall : w.calls[k]? with
  | none => simp [next, hcall] at h
  | some c =>
      have hknows : c.Knows w := hi.calls c (List.mem_of_getElem? hcall)
      have hrefl := Later.refl w
      cases c with
      | loggingIn =>
          simp only [next, hcall, Option.some.injEq, revocationsHold, decide_eq_true_eq] at h hok
          subst h
          exact (later_generateRefreshToken hok).goto_inv hi rfl rfl trivial
      | verifying token =>
          simp only [next, hcall, Option.some.injEq] at h
          subst h
          refine hrefl.goto_inv hi rfl rfl ?_
          unfold verify
          split
          · trivial
          · split <;> trivial
      | expired token =>
          simp only [next, hcall, Option.some.injEq] at h
          subst h
          exact (later_deleteToken token).goto_inv hi rfl rfl trivial
      | extending token =>
          simp only [next, hcall, Option.some.injEq] at h
          subst h
          exact (later_updateSessionActivity token).goto_inv hi rfl rfl trivial
      | issuing token =>
          simp only [next, hcall, Option.some.injEq, revocationsHold, Bool.or_eq_true,
            List.any_eq_true, decide_eq_true_eq] at h hok
          subst h
          exact (later_mint hok).goto_inv hi rfl rfl trivial
      | revoking token sids =>
          simp only [next, hcall, Option.some.injEq] at h
          subst h
          exact (later_deleteToken token).goto_inv hi rfl rfl ⟨hknows, by simp⟩
      | marking todo done =>
          cases todo with
          | nil =>
              simp only [next, hcall, Option.some.injEq] at h
              subst h
              exact hrefl.goto_inv hi rfl rfl hknows.2
          | cons sid todo =>
              simp only [next, hcall, Option.some.injEq, revocationsHold, List.all_eq_true,
                decide_eq_true_eq] at h hok
              subst h
              refine hrefl.goto_inv hi rfl rfl ⟨⟨?_, hok, ?_⟩, ?_, hknows.2⟩
              · rintro t rfl
                exact List.mem_append_right _ (hknows.1 _ List.mem_cons_self)
              · exact fun a ha _ => .inl (Nat.lt_succ_of_le (hi.minted a ha).2)
              · exact fun s hs => hknows.1 s (List.mem_cons_of_mem _ hs)
      | upserting sid now todo done =>
          simp only [next, hcall, Option.some.injEq, revocationsHold] at h hok
          subst h
          have hl := later_upsertMark (w := w) hok
          refine hl.goto_inv hi rfl rfl ⟨hknows.2.1, fun s hs => ?_⟩
          rcases List.mem_append.mp hs with hs | hs
          · exact (hknows.2.2 s hs).later hl
          · obtain rfl := List.mem_singleton.mp hs
            exact revoked_upsertMark hi hok hknows.1
      | answering done =>
          simp only [next, hcall, Option.some.injEq] at h
          subst h
          have hl : Later w { w with
              closings := { w.closings with sids := w.closings.sids ++ done } } :=
            { hrefl with sids := List.subset_append_left _ _ }
          refine hl.goto.inv hi hi.old (fun s hs => ?_) (.inl rfl) fun c hc => ?_
          · exact (List.mem_append.mp hs).imp_right fun hd => (hknows s hd).later hl.goto
          · rcases mem_calls_goto hc with hold | rfl
            · exact .inl hold
            · exact .inr trivial
      | committing invalidatedAt =>
          simp only [next, hcall, Option.some.injEq, revocationsHold, Bool.and_eq_true,
            List.all_eq_true, Bool.or_eq_true, decide_eq_true_eq] at h hok
          subst h
          have hl := later_updatePassword hi hok.1
          have hv := revoked_updatePassword hi hok.1 hok.2
          refine hl.goto.inv hi (List.Subset.refl _) (fun _ hs => .inl hs) (.inr ?_) fun c hc => ?_
          · exact hv.later (Later.refl _).goto
          · rcases mem_calls_goto hc with hold | rfl
            · exact .inl hold
            · exact .inr trivial
      | checkingSession a since =>
          simp only [next, hcall, Option.some.injEq] at h
          subst h
          obtain ⟨ha, hsids, htokens⟩ := hknows
          refine hrefl.goto_inv hi rfl rfl ?_
          split
          · trivial
          · rename_i hcover
            refine ⟨ha, fun hclosed => ?_⟩
            have hinv := invalid_of_closedBy hi ha
              (hclosed.imp (fun hs => hsids hs) fun ht => htokens ht)
            exact (Bool.or_eq_true_iff.mp hinv).resolve_left hcover
      | checkingUser a since =>
          simp only [next, hcall, Option.some.injEq] at h
          subst h
          refine hrefl.goto_inv hi rfl rfl ?_
          split
          · trivial
          · rename_i hcover
            exact fun hclosed => hcover (hknows.2 hclosed)
      | _ => simp [next, hcall] at h

/-- A new call, that knows what it starts from. -/
theorem Later.begin_inv (h : Later w w') (hi : SessionInv w) (heq : w'.closings = w.closings)
    (hcalls : w'.calls = w.calls ++ [call]) (hk : call.Knows w') : SessionInv w' := by
  refine h.inv_of_same hi heq fun c hc => ?_
  rw [hcalls] at hc
  rcases List.mem_append.mp hc with hold | hnew
  · exact .inl hold
  · obtain rfl := List.mem_singleton.mp hnew
    exact .inr hk

theorem step_inv {e : SessionEvent} (hi : SessionInv w) (hok : revocationsHold w e = true)
    (h : sessionStep w e = some w') : SessionInv w' := by
  have hrefl := Later.refl w
  cases e with
  | next k drawn => exact next_inv hi hok h
  | login =>
      obtain rfl := Option.some.inj h
      exact Later.begin_inv { hrefl with } hi rfl rfl trivial
  | refresh token =>
      obtain rfl := Option.some.inj h
      exact Later.begin_inv { hrefl with } hi rfl rfl trivial
  | logout sid cookie =>
      obtain rfl := Option.some.inj h
      refine Later.begin_inv { hrefl with named := List.subset_append_left _ _ } hi rfl rfl ?_
      split
      · exact fun s hs => List.mem_append_right _ hs
      · exact ⟨fun s hs => List.mem_append_right _ hs, by simp⟩
  | updateUserPassword =>
      obtain rfl := Option.some.inj h
      exact Later.begin_inv { hrefl with } hi rfl rfl trivial
  | authenticate i =>
      obtain ⟨a, ha, rfl⟩ := Option.map_eq_some_iff.mp h
      refine Later.begin_inv { hrefl with } hi rfl rfl ?_
      split
      · exact ⟨List.mem_of_getElem? ha, List.Subset.refl _, List.Subset.refl _⟩
      · trivial
  | fail k =>
      obtain rfl := Option.some.inj h
      refine hrefl.goto_inv hi rfl rfl ?_
      unfold failing
      split <;> trivial
  | tick d =>
      obtain rfl := Option.some.inj h
      have hsecond : w.second ≤ { w with clock := w.clock + d }.second :=
        Nat.div_le_div_right (Nat.le_add_right _ _)
      exact Later.inv_of_same { hrefl with second := hsecond, minted := fun _ ha => .inl ha } hi rfl
        fun _ hc => .inl hc

end SessionWorld

/-! ## The result -/

theorem SessionInv.closed {w : SessionWorld} (hi : SessionInv w) : SessionsClosed w where
  invalid := fun _ ha hc => SessionWorld.invalid_of_closedBy hi ha hc
  refused := fun a since hmem => hi.calls (.accepted a since) hmem

theorem sessionInv_init : SessionInv {} where
  minted := by simp
  old := by simp
  sids := by simp
  tokens := ⟨by simp, by simp, by simp⟩
  calls := by simp

/-- Where the steps keep the promise, in any order, what was closed stays closed. -/
theorem sessions_closed {w : SessionWorld}
    (h : Machine.Reach sessionStep (fun w e => revocationsHold w e = true) {} w) :
    SessionsClosed w :=
  (h.invariant sessionInv_init fun hi hok hs => SessionWorld.step_inv hi hok hs).closed

/-- The random characters of a refresh token, and its session. -/
def drawnCharacters : String := "kT0l4bYxQ2m9sVn7eWpR3cUaZf8hJdGi6oMw1tXyLqE"

def drawnToken : String := "rt_kT0l4bYxQ2m9sVn7eWpR3cUaZf8hJdGi6oMw1tXyLqE"

def drawnSession : String := "rt_kT0l4bYxQ2m9sVn7e"

/-- A login, a logout in a later second, and the token of the login again. -/
def loggedOutRun : List SessionEvent :=
  [.tick 1000, .login, .next 0 drawnCharacters, .next 0 "", .tick 1000,
   .logout (some drawnSession) (some drawnToken),
   .next 1 "", .next 1 "", .next 1 "", .next 1 "", .next 1 "",
   .authenticate 0, .next 2 ""]

def loggedOutWorld : SessionWorld where
  clock := 2000
  marks := [(drawnSession, 2)]
  calls := [.issued ⟨drawnSession, 1, drawnToken⟩, .answered, .rejected]
  minted := [⟨drawnSession, 1, drawnToken⟩]
  created := [drawnToken]
  named := [drawnSession]
  closings := { sids := [drawnSession] }

theorem sessions_closed_loggedOut :
    loggedOutWorld.closings.sids = [drawnSession] ∧ SessionsClosed loggedOutWorld := by
  have hrun : Machine.exec (Machine.guarded sessionStep revocationsHold) {} loggedOutRun =
      some loggedOutWorld := by decide
  exact ⟨rfl, sessions_closed (Machine.reach_of_exec_guarded hrun)⟩

/-- A refresh verifies its token, `closing` is run to its end, and the second after that the
refresh mints and the token is shown. -/
def outlivingRun (closing : List SessionEvent) : List SessionEvent :=
  [.tick 1000, .login, .next 0 drawnCharacters, .next 0 "", .refresh drawnToken,
   .next 1 "", .next 1 ""] ++ closing ++
  [.tick 1000, .next 1 "", .authenticate 1, .next 3 "", .next 3 ""]

/-- A token that a refresh mints the second after a logout, or after a password change, is
accepted. -/
theorem refresh_outlives_logout :
    (∃ w a since, Machine.Reach sessionStep Machine.free {} w ∧
      SessionCall.accepted a since ∈ w.calls ∧ a.sid ∈ since.sids) ∧
    ∃ w a since, Machine.Reach sessionStep Machine.free {} w ∧
      SessionCall.accepted a since ∈ w.calls ∧ a.refreshToken ∈ since.tokens := by
  let first : AccessToken := ⟨drawnSession, 1, drawnToken⟩
  let late : AccessToken := ⟨drawnSession, 2, drawnToken⟩
  let loggedOut : Closings := { sids := [drawnSession] }
  let changed : Closings := { tokens := [drawnToken] }
  let w : SessionWorld := { clock := 2000, minted := [first, late], created := [drawnToken] }
  have hlogout : Machine.exec sessionStep {}
      (outlivingRun [.logout (some drawnSession) (some drawnToken),
        .next 2 "", .next 2 "", .next 2 "", .next 2 "", .next 2 ""]) =
      some { w with
        marks := [(drawnSession, 1)]
        calls := [.issued first, .issued late, .answered, .accepted late loggedOut]
        named := [drawnSession]
        closings := loggedOut } := by decide
  have hchange : Machine.exec sessionStep {}
      (outlivingRun [.updateUserPassword, .next 2 ""]) =
      some { w with
        marks := [(USER_LEVEL_SESSION_ID, 1)]
        calls := [.issued first, .issued late, .answered, .accepted late changed]
        closings := changed } := by decide
  exact ⟨⟨_, late, loggedOut, Machine.reach_of_exec hlogout, by decide, by decide⟩,
    ⟨_, late, changed, Machine.reach_of_exec hchange, by decide, by decide⟩⟩

end Incudal
