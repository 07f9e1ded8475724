/-
# `OperationVerification` — five guesses at a code, one success, one claim

The count of wrong guesses is kept in the code column itself, behind a suffix.
An attempt looks for a code, locks its row, reads it again, and in the same
transaction answers and writes; the transactions run at the level read
committed, statement by statement.  The lock is what makes the second reading
the value that is written over, so that no increment is lost.

The time an attempt compares with the expiry is the one it began with.  While
it waits for the row the clock goes on, and what it then answers may come after
the expiry (`verification_guarded`).
-/
import Incudal.Basic
import Incudal.Lib.Exclusive
import Incudal.Lib.Machine
import Mathlib.Data.List.Count
import Mathlib.Data.Nat.Init
import Mathlib.Logic.Function.Basic

namespace Incudal

/-! ## The count inside the code -/

/-- `VERIFICATION_CONFIG.maxAttempts`. -/
def verificationMaxAttempts : ℕ := 5

/-- `VERIFICATION_CONFIG.expiresInMinutes`, in milliseconds. -/
def verificationLifetime : ℕ := 10 * 60 * 1000

/-- `FAILED_ATTEMPTS_SUFFIX`. -/
def failedAttemptsSuffix : List Char := [':', 'a', 't', 't', 'e', 'm', 'p', 't', 's', ':']

/-- `lastIndexOf`. -/
def lastIndexOf (needle : List Char) : List Char → Option ℕ
  | [] => if needle.isEmpty then some 0 else none
  | c :: text =>
      match lastIndexOf needle text with
      | some i => some (i + 1)
      | none => if needle.isPrefixOf (c :: text) then some 0 else none

/-- `Number` of a numeral; nothing else is ever written behind the suffix. -/
def numeral (text : List Char) : Option ℕ :=
  if text.all Char.isDigit then some (text.foldl (fun n c => 10 * n + (c.toNat - '0'.toNat)) 0)
  else none

structure StoredCode where
  code : List Char
  attempts : ℕ
deriving DecidableEq, Repr

def decodeVerificationCode (storedCode : List Char) : StoredCode :=
  match lastIndexOf failedAttemptsSuffix storedCode with
  | none => { code := storedCode, attempts := 0 }
  | some suffixIndex =>
      match numeral (storedCode.drop (suffixIndex + failedAttemptsSuffix.length)) with
      | none => { code := storedCode, attempts := 0 }
      | some attempts =>
          if verificationMaxAttempts < attempts then { code := storedCode, attempts := 0 }
          else { code := storedCode.take suffixIndex, attempts }

def encodeVerificationCode (code : List Char) (attempts : ℕ) : List Char :=
  code ++ (failedAttemptsSuffix ++ Nat.toDigits 10 attempts)

theorem lastIndexOf_append {needle text : List Char} {i : ℕ}
    (h : lastIndexOf needle text = some i) (code : List Char) :
    lastIndexOf needle (code ++ text) = some (code.length + i) := by
  induction code with
  | nil => simpa using h
  | cons c code ih =>
    rw [List.cons_append, lastIndexOf, ih, List.length_cons]
    exact congrArg some (by omega)

/-- A text without the suffix's colon does not have the suffix. -/
theorem lastIndexOf_eq_none {text : List Char} (h : ':' ∉ text) :
    lastIndexOf failedAttemptsSuffix text = none := by
  induction text with
  | nil => rfl
  | cons c text ih =>
    rw [List.mem_cons, not_or] at h
    have hhead : failedAttemptsSuffix.isPrefixOf (c :: text) = false := by
      simp [failedAttemptsSuffix, List.isPrefixOf, h.1]
    rw [lastIndexOf, ih h.2]
    simp [hhead]

/-- What is decoded is what was encoded. -/
theorem decode_encode (code : List Char) {attempts : ℕ} (h : attempts ≤ verificationMaxAttempts) :
    decodeVerificationCode (encodeVerificationCode code attempts) = { code, attempts } := by
  have hsuffix : ∀ n ≤ verificationMaxAttempts,
      lastIndexOf failedAttemptsSuffix (failedAttemptsSuffix ++ Nat.toDigits 10 n) = some 0 ∧
        numeral (Nat.toDigits 10 n) = some n := by decide +kernel
  obtain ⟨hlast, hnumeral⟩ := hsuffix attempts h
  have hdrop : (encodeVerificationCode code attempts).drop
      (code.length + 0 + failedAttemptsSuffix.length) = Nat.toDigits 10 attempts := by
    simp [encodeVerificationCode]
  rw [decodeVerificationCode, encodeVerificationCode, lastIndexOf_append hlast code]
  simp only
  rw [← encodeVerificationCode, hdrop, hnumeral]
  simp [encodeVerificationCode, Nat.not_lt.mpr h]

/-- `generateVerificationCode`, on the number that was drawn. -/
def generateVerificationCode (drawn : ℕ) : List Char := Nat.toDigits 10 drawn

theorem decode_generate (drawn : ℕ) : decodeVerificationCode (generateVerificationCode drawn) =
    { code := generateVerificationCode drawn, attempts := 0 } := by
  have hcolon : ':' ∉ generateVerificationCode drawn := by
    intro hmem
    exact absurd (Nat.isDigit_of_mem_toDigits (by decide) (by decide) hmem) (by decide)
  rw [decodeVerificationCode, lastIndexOf_eq_none hcolon]

/-! ## Rows and calls -/

/-- `OperationType`. -/
inductive OperationType
  | changePassword | disable2fa | changeEmail | deleteAccount | deleteInstance
  | reinstallInstance | recreateInstance | transferInstance | deleteSnapshot | deleteBackup
deriving DecidableEq, Repr

/-- What a verification is for. -/
structure VerificationKey where
  userId : ℕ
  operationType : OperationType
  resourceId : Option ℕ
deriving DecidableEq, Repr

/-- The key with `resourceId || null`. -/
def VerificationKey.ofRequest (userId : ℕ) (operationType : OperationType)
    (resourceId : Option ℕ) : VerificationKey :=
  { userId, operationType, resourceId := resourceId.filter (· ≠ 0) }

/-- The columns of `operation_verifications`, the channel and the resource's type left out. -/
structure OperationVerification where
  key : VerificationKey
  code : List Char
  verified : Bool := false
  verifiedAt : Option Time := none
  expiresAt : Time
  createdAt : Time
deriving DecidableEq, Repr

/-- Where an attempt is.  `held` says that `FOR UPDATE` has found an unverified row and locked
it; `row` is the second reading. -/
inductive VerifyStage
  | started
  | found (id : ℕ)
  | selected (id : ℕ) (held : Bool)
  | read (id : ℕ) (held : Bool) (row : Option OperationVerification)
  | done (verified : Option Bool)

/-- A call of `verifyOperationCode`; `now` is read when the transaction begins. -/
structure VerifyCall where
  key : VerificationKey
  code : List Char
  now : Time
  stage : VerifyStage

/-- The row that an attempt has locked. -/
def VerifyCall.holding (call : VerifyCall) : Option ℕ :=
  match call.stage with
  | .selected id true | .read id true _ => some id
  | _ => none

def VerifyCall.at_ (call : VerifyCall) (stage : VerifyStage) : VerifyCall := { call with stage }

inductive ClaimStage
  | started
  | found (id : ℕ)
  | done (claimed : Bool)

/-- A call of `claimOperationVerification`. -/
structure ClaimCall where
  key : VerificationKey
  tenMinutesAgo : Time
  stage : ClaimStage

/-- What has happened to a stored code. -/
inductive VerificationOutcome
  | wrong | succeeded | claimed | removed
deriving DecidableEq, Repr

/-! ## The table -/

structure VerificationWorld where
  clock : Time
  rows : ℕ → Option OperationVerification := fun _ => none
  nextId : ℕ := 1
  attempts : List VerifyCall := []
  claims : List ClaimCall := []
  /-- what happened to each code, the code that was sent, and who succeeded after the expiry -/
  outcomes : ℕ → List VerificationOutcome := fun _ => []
  issued : ℕ → List Char := fun _ => []
  afterExpiry : List ℕ := []

namespace VerificationWorld

variable (w : VerificationWorld)

def setAttempt (k : ℕ) (call : VerifyCall) : VerificationWorld :=
  { w with attempts := w.attempts.set k call }

def setClaim (k : ℕ) (call : ClaimCall) : VerificationWorld :=
  { w with claims := w.claims.set k call }

def setRow (id : ℕ) (row : OperationVerification) : VerificationWorld :=
  { w with rows := Function.update w.rows id (some row) }

/-- Something has happened to the code. -/
def record (id : ℕ) (outcome : VerificationOutcome) : VerificationWorld :=
  { w with outcomes := Function.update w.outcomes id (w.outcomes id ++ [outcome]) }

/-- A row that the condition meets is locked by an attempt other than the one that holds
`own`. -/
def lockedElsewhere (own : Option ℕ) (p : ℕ → OperationVerification → Bool) : Bool :=
  w.attempts.any fun call =>
    match call.holding with
    | none => false
    | some id => decide (own ≠ some id) && (w.rows id).any (p id)

/-- The rows that meet the condition are gone. -/
def removeRows (p : ℕ → OperationVerification → Bool) : VerificationWorld :=
  { w with
      rows := fun id => (w.rows id).filter fun row => !p id row
      outcomes := fun id =>
        if (w.rows id).any (p id) then w.outcomes id ++ [.removed] else w.outcomes id }

/-- `deleteMany`: it waits for the rows that others have locked. -/
def deleteMany (own : Option ℕ) (p : ℕ → OperationVerification → Bool) :
    Option VerificationWorld :=
  if w.lockedElsewhere own p then none else some (w.removeRows p)

/-- `findFirst` with an order: the row chosen is a first one, or there is none. -/
def findFirst (p : OperationVerification → Bool)
    (before : OperationVerification → OperationVerification → Bool) : Option ℕ → Bool
  | none => (List.range w.nextId).all fun id => !(w.rows id).any p
  | some id =>
      (w.rows id).any fun row => p row &&
        (List.range w.nextId).all fun other => (w.rows other).all fun row' =>
          !p row' || !before row' row

/-- The rows that an attempt may find. -/
def pending (call : VerifyCall) (row : OperationVerification) : Bool :=
  row.key == call.key && !row.verified && decide (call.now < row.expiresAt)

/-- The answer of an attempt whose guess was wrong. -/
def wrongGuess (k : ℕ) (call : VerifyCall) (id : ℕ) (row : OperationVerification) :
    Option VerificationWorld :=
  let storedCode := decodeVerificationCode row.code
  let nextAttempts := storedCode.attempts + 1
  let w := w.record id .wrong
  let w := w.setAttempt k (call.at_ (.done (some false)))
  if verificationMaxAttempts ≤ nextAttempts then
    w.deleteMany (some id) fun _ row => row.key == call.key && !row.verified
  else
    some (w.setRow id
      { row with code := encodeVerificationCode storedCode.code nextAttempts })

/-- The answer of an attempt whose guess was right. -/
def rightGuess (k : ℕ) (call : VerifyCall) (id : ℕ) (row : OperationVerification) :
    VerificationWorld :=
  { ((w.record id .succeeded).setAttempt k (call.at_ (.done (some true)))).setRow id
      { row with verified := true, verifiedAt := some call.now } with
    afterExpiry :=
      if row.expiresAt ≤ w.clock then w.afterExpiry ++ [id] else w.afterExpiry }

/-- What an attempt does with its second reading. -/
def answer (k : ℕ) (call : VerifyCall) (id : ℕ) : Option OperationVerification →
    Option VerificationWorld
  | none => some (w.setAttempt k (call.at_ (.done (some false))))
  | some row =>
      if row.verified || decide (row.expiresAt ≤ call.now) then
        some (w.setAttempt k (call.at_ (.done (some false))))
      else if verificationMaxAttempts ≤ (decodeVerificationCode row.code).attempts then
        (w.setAttempt k (call.at_ (.done (some false)))).deleteMany (some id)
          fun _ row => row.key == call.key && !row.verified
      else if (decodeVerificationCode row.code).code ≠ call.code then w.wrongGuess k call id row
      else some (w.rightGuess k call id row)

/-- The next statement of an attempt that has found a code; nothing while it waits. -/
def statement (k : ℕ) (call : VerifyCall) : Option VerificationWorld :=
  match call.stage with
  | .found id =>
      if (w.rows id).any fun row => !row.verified then
        if w.lockedElsewhere none (fun other _ => other == id) then none
        else some (w.setAttempt k (call.at_ (.selected id true)))
      else some (w.setAttempt k (call.at_ (.selected id false)))
  | .selected id held => some (w.setAttempt k (call.at_ (.read id held (w.rows id))))
  | .read id _ row => w.answer k call id row
  | _ => none

end VerificationWorld

/-- What happens to the codes.  Requests for a code race with each other, so each of their
statements is an event of its own. -/
inductive VerificationEvent
  | tick (elapsed : ℕ)
  | deleteExpired (userId : ℕ)
  | deleteExisting (id : ℕ)
  | create (key : VerificationKey) (drawn : ℕ)
  | deleteUnsent (userId : ℕ) (operationType : OperationType) (code : List Char)
  | verifyOperationCode (key : VerificationKey) (code : List Char)
  | findCode (k : ℕ) (first : Option ℕ)
  | statement (k : ℕ)
  /-- an attempt ends with an error, and its transaction is rolled back -/
  | crash (k : ℕ)
  | claimOperationVerification (key : VerificationKey)
  | findVerified (k : ℕ) (first : Option ℕ)
  | deleteVerified (k : ℕ)
  | consumeOperationVerification (key : VerificationKey)
deriving DecidableEq, Repr

def VerifyCall.underWay (call : VerifyCall) : Bool :=
  match call.stage with
  | .done _ => false
  | _ => true

namespace VerificationWorld

variable (w : VerificationWorld)

/-- Steps 5 and 6 of a request. -/
def createRow (key : VerificationKey) (drawn : ℕ) : VerificationWorld :=
  { w with
      rows := Function.update w.rows w.nextId (some
        { key
          code := generateVerificationCode drawn
          expiresAt := w.clock + verificationLifetime
          createdAt := w.clock })
      issued := Function.update w.issued w.nextId (generateVerificationCode drawn)
      nextId := w.nextId + 1 }

/-- The query of an attempt. -/
def findCode (k : ℕ) (call : VerifyCall) (first : Option ℕ) : Option VerificationWorld :=
  match call.stage with
  | .started =>
      if w.findFirst (pending call) (fun row' row => row.createdAt < row'.createdAt) first then
        match first with
        | none => some (w.setAttempt k (call.at_ (.done (some false))))
        | some id => some (w.setAttempt k (call.at_ (.found id)))
      else none
  | _ => none

/-- The rows that a claim may take. -/
def claimable (call : ClaimCall) (row : OperationVerification) : Bool :=
  row.verified && row.verifiedAt.any fun at_ => decide (call.tenMinutesAgo < at_)

/-- The query of a claim. -/
def findVerified (k : ℕ) (call : ClaimCall) (first : Option ℕ) : Option VerificationWorld :=
  match call.stage with
  | .started =>
      if w.findFirst (fun row => row.key == call.key && claimable call row)
          (fun row' row => row'.verifiedAt.getD 0 < row.verifiedAt.getD 0) first then
        match first with
        | none => some (w.setClaim k { call with stage := .done false })
        | some id => some (w.setClaim k { call with stage := .found id })
      else none
  | _ => none

/-- The deletion of a claim, which tells whether it has claimed. -/
def deleteVerified (k : ℕ) (call : ClaimCall) : Option VerificationWorld :=
  match call.stage with
  | .found id =>
      if w.lockedElsewhere none fun other row => other == id && claimable call row then none
      else if (w.rows id).any (claimable call) then
        some (({ w with rows := Function.update w.rows id none }.record id .claimed).setClaim k
          { call with stage := .done true })
      else some (w.setClaim k { call with stage := .done false })
  | _ => none

end VerificationWorld

def verificationStep (w : VerificationWorld) : VerificationEvent → Option VerificationWorld
  | .tick elapsed => some { w with clock := w.clock + elapsed }
  | .deleteExpired userId =>
      w.deleteMany none fun _ row => row.key.userId == userId && decide (row.expiresAt < w.clock)
  | .deleteExisting id =>
      if (w.rows id).any fun row => row.createdAt + 2 * 60 * 1000 ≤ w.clock then
        w.deleteMany none fun other _ => other == id
      else none
  | .create key drawn =>
      if 100000 ≤ drawn ∧ drawn < 1000000 then some (w.createRow key drawn) else none
  | .deleteUnsent userId operationType code =>
      w.deleteMany none fun _ row =>
        row.key.userId == userId && row.key.operationType == operationType && row.code == code
  | .verifyOperationCode key code =>
      some { w with attempts := w.attempts ++ [{ key, code, now := w.clock, stage := .started }] }
  | .findCode k first =>
      match w.attempts[k]? with
      | none => none
      | some call => w.findCode k call first
  | .statement k =>
      match w.attempts[k]? with
      | none => none
      | some call => w.statement k call
  | .crash k =>
      match w.attempts[k]? with
      | none => none
      | some call => if call.underWay then some (w.setAttempt k (call.at_ (.done none))) else none
  | .claimOperationVerification key =>
      some { w with
        claims := w.claims ++
          [{ key, tenMinutesAgo := w.clock - 10 * 60 * 1000, stage := .started }] }
  | .findVerified k first =>
      match w.claims[k]? with
      | none => none
      | some call => w.findVerified k call first
  | .deleteVerified k =>
      match w.claims[k]? with
      | none => none
      | some call => w.deleteVerified k call
  | .consumeOperationVerification key =>
      w.deleteMany none fun _ row => row.key == key && row.verified

/-! ## The property -/

/-- At most five wrong guesses at a code, one success and one claim; before a success there has
been nothing but wrong guesses, fewer than five, so that no success comes after the code was
used, claimed, removed or exhausted. -/
structure CodesGuarded (w : VerificationWorld) : Prop where
  guesses : ∀ id, (w.outcomes id).count .wrong ≤ 5
  once : ∀ id, (w.outcomes id).count .succeeded ≤ 1
  claimedOnce : ∀ id, (w.outcomes id).count .claimed ≤ 1
  first : ∀ id before after, w.outcomes id = before ++ .succeeded :: after →
    before.length < 5 ∧ before = List.replicate before.length .wrong

/-- While an attempt is under way, the clock does not reach the expiry of a code that it could
find. -/
def inTime (w : VerificationWorld) : VerificationEvent → Bool
  | .tick elapsed =>
      w.attempts.all fun call => !call.underWay ||
        (List.range w.nextId).all fun id => (w.rows id).all fun row =>
          !VerificationWorld.pending call row || decide (w.clock + elapsed < row.expiresAt)
  | _ => true

/-! ## What holds between the statements -/

/-- The course of a code that is gone. -/
def Finished (outcomes : List VerificationOutcome) : Prop :=
  outcomes = [] ∨
  (∃ n, n ≤ verificationMaxAttempts ∧ outcomes = List.replicate n .wrong ++ [.removed]) ∨
  ∃ n, n < verificationMaxAttempts ∧
    (outcomes = List.replicate n .wrong ++ [.succeeded, .removed] ∨
      outcomes = List.replicate n .wrong ++ [.succeeded, .claimed])

/-- The row of a code tells what has happened to it: the count behind the suffix is the number
of wrong guesses, and what stands before it is what was sent. -/
def Course (w : VerificationWorld) (id : ℕ) : Prop :=
  match w.rows id with
  | none => (w.nextId ≤ id → w.outcomes id = []) ∧ Finished (w.outcomes id)
  | some row => id < w.nextId ∧
      if row.verified then
        ∃ n, n < verificationMaxAttempts ∧ w.outcomes id = List.replicate n .wrong ++ [.succeeded]
      else
        (decodeVerificationCode row.code).attempts < verificationMaxAttempts ∧
        (decodeVerificationCode row.code).code = w.issued id ∧
        w.outcomes id = List.replicate (decodeVerificationCode row.code).attempts .wrong

/-- What an attempt knows of the row it has found. -/
def AttemptInv (w : VerificationWorld) (call : VerifyCall) : Prop :=
  match call.stage with
  | .found id => id < w.nextId ∧ ∀ row, w.rows id = some row → row.key = call.key
  | .selected id true => ∃ row, w.rows id = some row ∧ row.verified = false ∧ row.key = call.key
  | .selected id false => id < w.nextId ∧ ∀ row, w.rows id = some row → row.verified = true
  | .read id true read =>
      ∃ row, w.rows id = some row ∧ row.verified = false ∧ row.key = call.key ∧ read = some row
  | .read _ false read => ∀ row, read = some row → row.verified = true
  | _ => True

/-- The attempts under way are before the expiry of every code they could find. -/
def Timely (w : VerificationWorld) : Prop :=
  ∀ call ∈ w.attempts, call.underWay = true → ∀ id row, w.rows id = some row →
    VerificationWorld.pending call row = true → w.clock < row.expiresAt

/-- The invariant; `strict` says that the run keeps to `inTime`. -/
structure VerificationInv (strict : Prop) (w : VerificationWorld) : Prop where
  course : ∀ id, Course w id
  attempts : ∀ call ∈ w.attempts, AttemptInv w call
  lock : ∀ id, Exclusive (fun call : VerifyCall => call.holding = some id) w.attempts
  timely : strict → w.afterExpiry = [] ∧ Timely w

/-- What a statement may do to the rows: they keep their key and expiry, they stay verified, and
new ones are not expired. -/
structure RowsEvolve (w w' : VerificationWorld) : Prop where
  ids : w.nextId ≤ w'.nextId
  rows : ∀ id row', w'.rows id = some row' →
    (∃ row, w.rows id = some row ∧ row'.key = row.key ∧ row'.expiresAt = row.expiresAt ∧
      (row.verified = true → row'.verified = true)) ∨
    (w.nextId ≤ id ∧ w.clock < row'.expiresAt)

section Steps

variable {strict : Prop} {w w' : VerificationWorld} {k id : ℕ} {call call' : VerifyCall}
  {row : OperationVerification}

theorem Course.congr (h : Course w id) (hrows : w'.rows id = w.rows id)
    (houtcomes : w'.outcomes id = w.outcomes id) (hissued : w'.issued id = w.issued id)
    (hids : w'.nextId = w.nextId) : Course w' id := by
  unfold Course at h ⊢
  rwa [hrows, houtcomes, hissued, hids]

theorem course_none (hrow : w.rows id = none) :
    Course w id ↔ (w.nextId ≤ id → w.outcomes id = []) ∧ Finished (w.outcomes id) := by
  unfold Course
  rw [hrow]

theorem course_verified (hrow : w.rows id = some row) (hverified : row.verified = true) :
    Course w id ↔ id < w.nextId ∧ ∃ n, n < verificationMaxAttempts ∧
      w.outcomes id = List.replicate n .wrong ++ [.succeeded] := by
  unfold Course
  rw [hrow]
  simp only [if_pos hverified]

theorem course_pending (hrow : w.rows id = some row) (hverified : row.verified = false) :
    Course w id ↔ id < w.nextId ∧
      (decodeVerificationCode row.code).attempts < verificationMaxAttempts ∧
      (decodeVerificationCode row.code).code = w.issued id ∧
      w.outcomes id = List.replicate (decodeVerificationCode row.code).attempts .wrong := by
  unfold Course
  rw [hrow]
  simp only [hverified, Bool.false_eq_true, if_false]

theorem AttemptInv.evolve (h : AttemptInv w call) (hev : RowsEvolve w w')
    (hheld : ∀ id, call.holding = some id → w'.rows id = w.rows id) : AttemptInv w' call := by
  unfold AttemptInv at h ⊢
  unfold VerifyCall.holding at hheld
  cases hs : call.stage with
  | started => trivial
  | found id =>
    simp only [hs] at h ⊢
    refine ⟨Nat.lt_of_lt_of_le h.1 hev.ids, fun row' hrow' => ?_⟩
    rcases hev.rows id row' hrow' with ⟨row, hrow, hkey, -, -⟩ | ⟨hnew, -⟩
    · exact hkey.trans (h.2 row hrow)
    · exact absurd h.1 (Nat.not_lt.mpr hnew)
  | selected id held =>
    cases held
    · simp only [hs] at h ⊢
      refine ⟨Nat.lt_of_lt_of_le h.1 hev.ids, fun row' hrow' => ?_⟩
      rcases hev.rows id row' hrow' with ⟨row, hrow, -, -, hverified⟩ | ⟨hnew, -⟩
      · exact hverified (h.2 row hrow)
      · exact absurd h.1 (Nat.not_lt.mpr hnew)
    · simp only [hs] at h hheld ⊢
      rwa [hheld id rfl]
  | read id held read =>
    cases held
    · simpa only [hs] using h
    · simp only [hs] at h hheld ⊢
      rwa [hheld id rfl]
  | done verified => trivial

/-- A statement that changes rows, but none that an attempt under way has locked. -/
theorem VerificationInv.change (h : VerificationInv strict w) (hev : RowsEvolve w w')
    (hcourse : ∀ id, Course w' id) (hclock : w'.clock = w.clock)
    (hafter : strict → w'.afterExpiry = [])
    (hlock : ∀ id, Exclusive (fun call : VerifyCall => call.holding = some id) w'.attempts)
    (hattempts : ∀ call ∈ w'.attempts, call.underWay = false ∨
      call ∈ w.attempts ∧ ∀ id, call.holding = some id → w'.rows id = w.rows id) :
    VerificationInv strict w' where
  course := hcourse
  attempts := by
    intro call hcall
    rcases hattempts call hcall with hdone | ⟨hmem, hheld⟩
    · unfold VerifyCall.underWay at hdone
      unfold AttemptInv
      cases hs : call.stage <;> simp [hs] at hdone ⊢
    · exact (h.attempts call hmem).evolve hev hheld
  lock := hlock
  timely := by
    intro hstrict
    refine ⟨hafter hstrict, fun call hcall hunder id row' hrow' hpending => ?_⟩
    rcases hattempts call hcall with hdone | ⟨hmem, -⟩
    · exact absurd hunder (by simp [hdone])
    rw [hclock]
    rcases hev.rows id row' hrow' with ⟨row, hrow, hkey, hexpires, hverified⟩ | ⟨-, hnew⟩
    · rw [hexpires]
      refine (h.timely hstrict).2 call hmem hunder id row hrow ?_
      simp only [VerificationWorld.pending, Bool.and_eq_true, Bool.not_eq_true', beq_iff_eq,
        decide_eq_true_eq] at hpending ⊢
      refine ⟨⟨hkey ▸ hpending.1.1, ?_⟩, hexpires ▸ hpending.2⟩
      by_contra hold
      rw [hverified (by simpa using hold)] at hpending
      exact absurd hpending.1.2 (by simp)
    · exact hnew

/-- A statement of an attempt that changes no row. -/
theorem VerificationInv.move (h : VerificationInv strict w) (hk : w.attempts[k]? = some call)
    (hunder : call.underWay = true) (hkey : call'.key = call.key) (hnow : call'.now = call.now)
    (hheld : ∀ id, call'.holding = some id →
      call.holding = some id ∨ ∀ c ∈ w.attempts, ¬c.holding = some id)
    (hcall : AttemptInv w call') : VerificationInv strict (w.setAttempt k call') where
  course := fun id => (h.course id).congr rfl rfl rfl rfl
  attempts := by
    intro c hc
    rcases List.mem_or_eq_of_mem_set hc with hc | rfl
    · exact h.attempts c hc
    · exact hcall
  lock := fun id => (h.lock id).set hk (hheld id)
  timely := by
    intro hstrict
    refine ⟨(h.timely hstrict).1, fun c hc hunder' id row hrow hpending => ?_⟩
    rcases List.mem_or_eq_of_mem_set hc with hc | rfl
    · exact (h.timely hstrict).2 c hc hunder' id row hrow hpending
    · refine (h.timely hstrict).2 call (List.mem_of_getElem? hk) hunder id row hrow ?_
      unfold VerificationWorld.pending at hpending ⊢
      rwa [← hkey, ← hnow]

/-- An attempt that is over. -/
theorem VerificationInv.finish (h : VerificationInv strict w) (hk : w.attempts[k]? = some call)
    (hunder : call.underWay = true) (verified : Option Bool) :
    VerificationInv strict (w.setAttempt k (call.at_ (.done verified))) :=
  h.move hk hunder rfl rfl (by simp [VerifyCall.holding, VerifyCall.at_]) trivial

/-- What an attempt has locked is there, not verified, and for its key. -/
theorem VerificationInv.held (h : VerificationInv strict w) (hcall : call ∈ w.attempts)
    (hholds : call.holding = some id) :
    ∃ row, w.rows id = some row ∧ row.verified = false ∧ row.key = call.key := by
  have hinv := h.attempts call hcall
  unfold VerifyCall.holding at hholds
  unfold AttemptInv at hinv
  split at hholds
  · rename_i hs
    obtain rfl := Option.some.inj hholds
    simpa only [hs] using hinv
  · rename_i hs
    obtain rfl := Option.some.inj hholds
    simp only [hs] at hinv
    obtain ⟨row, hrow, hverified, hkey, -⟩ := hinv
    exact ⟨row, hrow, hverified, hkey⟩
  · cases hholds

theorem VerificationInv.lt_nextId (h : VerificationInv strict w) (hrow : w.rows id = some row) :
    id < w.nextId := by
  cases hverified : row.verified
  · exact ((course_pending hrow hverified).mp (h.course id)).1
  · exact ((course_verified hrow hverified).mp (h.course id)).1

/-! ## Deletions -/

variable {p : ℕ → OperationVerification → Bool}

theorem removeRows_rows (hrow : (w.removeRows p).rows id = some row) :
    w.rows id = some row ∧ p id row = false := by
  obtain ⟨hrow, hp⟩ := Option.filter_eq_some_iff.mp hrow
  exact ⟨hrow, by simpa using hp⟩

theorem rowsEvolve_removeRows : RowsEvolve w (w.removeRows p) where
  ids := Nat.le_refl _
  rows := fun _ row' hrow' =>
    .inl ⟨row', (removeRows_rows hrow').1, rfl, rfl, fun hverified => hverified⟩

/-- The course of a code whose row is deleted is finished. -/
theorem Course.finished_removed (h : Course w id) (hrow : w.rows id = some row) :
    id < w.nextId ∧ Finished (w.outcomes id ++ [.removed]) := by
  cases hverified : row.verified
  · obtain ⟨hid, hless, -, houtcomes⟩ := (course_pending hrow hverified).mp h
    exact ⟨hid, .inr (.inl ⟨_, Nat.le_of_lt hless, by rw [houtcomes]⟩)⟩
  · obtain ⟨hid, n, hn, houtcomes⟩ := (course_verified hrow hverified).mp h
    exact ⟨hid, .inr (.inr ⟨n, hn, .inl (by simp [houtcomes])⟩)⟩

theorem Course.removeRows (h : Course w id) : Course (w.removeRows p) id := by
  cases hrow : w.rows id with
  | none =>
    refine h.congr ?_ ?_ rfl rfl <;> simp [VerificationWorld.removeRows, hrow]
  | some row =>
    cases hp : p id row
    · refine h.congr ?_ ?_ rfl rfl <;> simp [VerificationWorld.removeRows, hrow, hp]
    · obtain ⟨hid, hfinished⟩ := h.finished_removed hrow
      refine (course_none (by simp [VerificationWorld.removeRows, hrow, hp])).mpr ⟨?_, ?_⟩
      · exact fun hnew => absurd hid (Nat.not_lt.mpr hnew)
      · simpa [VerificationWorld.removeRows, hrow, hp] using hfinished

/-- A row that another attempt has locked is not deleted. -/
theorem removeRows_of_not_locked {own : Option ℕ} (hfree : ¬w.lockedElsewhere own p = true)
    (hcall : call ∈ w.attempts) (hholds : call.holding = some id) (hown : own ≠ some id) :
    (w.removeRows p).rows id = w.rows id := by
  have hkept : (w.rows id).any (p id) = false := by
    by_contra hp
    refine hfree (List.any_eq_true.mpr ⟨call, hcall, ?_⟩)
    simp only [hholds, Bool.and_eq_true, decide_eq_true_eq]
    exact ⟨hown, by simpa using hp⟩
  cases hrow : w.rows id with
  | none => simp [VerificationWorld.removeRows, hrow]
  | some row =>
    rw [hrow] at hkept
    have hp : p id row = false := by simpa using hkept
    simp [VerificationWorld.removeRows, hrow, hp]

theorem VerificationInv.deleteMany (h : VerificationInv strict w)
    (hstep : w.deleteMany none p = some w') : VerificationInv strict w' := by
  unfold VerificationWorld.deleteMany at hstep
  split_ifs at hstep with hlocked
  obtain rfl := Option.some.inj hstep
  refine h.change rowsEvolve_removeRows (fun id => (h.course id).removeRows) rfl
    (fun hstrict => (h.timely hstrict).1) h.lock fun call hcall => .inr ⟨hcall, fun id hholds => ?_⟩
  exact removeRows_of_not_locked hlocked hcall hholds (by simp)

/-! ## Answers -/

/-- An answer may change the row that the attempt has locked, and must leave alone what others
have locked. -/
theorem VerificationInv.settle (h : VerificationInv strict w) (hk : w.attempts[k]? = some call)
    (hholds : call.holding = some id) {verified : Option Bool} (hev : RowsEvolve w w')
    (hcourse : ∀ id, Course w' id) (hclock : w'.clock = w.clock)
    (hafter : strict → w'.afterExpiry = [])
    (hattempts : w'.attempts = w.attempts.set k (call.at_ (.done verified)))
    (hother : ∀ c ∈ w'.attempts, ∀ id', c.holding = some id' → id' ≠ id →
      w'.rows id' = w.rows id') : VerificationInv strict w' := by
  refine h.change hev hcourse hclock hafter (fun id' => ?_) fun c hc => ?_
  · rw [hattempts]
    exact (h.lock id').set hk (by simp [VerifyCall.holding, VerifyCall.at_])
  · have hmem := hc
    rw [hattempts] at hmem
    rcases mem_set_cases hmem with rfl | ⟨j, hjk, hj⟩
    · exact .inl rfl
    · refine .inr ⟨List.mem_of_getElem? hj, fun id' hid' => hother c hc id' hid' ?_⟩
      rintro rfl
      exact hjk (h.lock id' j k c call hj hk hid' hholds)

/-- One row is rewritten, under the same key and expiry. -/
theorem RowsEvolve.rewrite {new : OperationVerification} (hrow : w.rows id = some row)
    (hids : w'.nextId = w.nextId) (hrows : w'.rows = Function.update w.rows id (some new))
    (hkey : new.key = row.key) (hexpires : new.expiresAt = row.expiresAt)
    (hverified : row.verified = true → new.verified = true) : RowsEvolve w w' where
  ids := Nat.le_of_eq hids.symm
  rows := by
    intro id' row' hrow'
    rw [hrows] at hrow'
    by_cases hne : id' = id
    · subst hne
      rw [Function.update_self] at hrow'
      obtain rfl := Option.some.inj hrow'
      exact .inl ⟨row, hrow, hkey, hexpires, hverified⟩
    · rw [Function.update_of_ne hne] at hrow'
      exact .inl ⟨row', hrow', rfl, rfl, fun hold => hold⟩

/-- A wrong guess below the last is counted behind the suffix. -/
theorem Course.counted (h : Course w id) (hrow : w.rows id = some row)
    (hverified : row.verified = false)
    (hless : (decodeVerificationCode row.code).attempts + 1 < verificationMaxAttempts) :
    Course (((w.record id .wrong).setAttempt k call').setRow id
      { row with
          code := encodeVerificationCode (decodeVerificationCode row.code).code
            ((decodeVerificationCode row.code).attempts + 1) }) id := by
  obtain ⟨hid, -, hcode, houtcomes⟩ := (course_pending hrow hverified).mp h
  have hdecode := decode_encode (decodeVerificationCode row.code).code (Nat.le_of_lt hless)
  have hrow' : (((w.record id .wrong).setAttempt k call').setRow id
      { row with
          code := encodeVerificationCode (decodeVerificationCode row.code).code
            ((decodeVerificationCode row.code).attempts + 1) }).rows id = _ :=
    Function.update_self _ _ _
  refine (course_pending hrow' hverified).mpr ⟨hid, ?_, ?_, ?_⟩
  · rw [hdecode]
    exact hless
  · rw [hdecode]
    exact hcode
  · rw [hdecode]
    show Function.update w.outcomes id (w.outcomes id ++ [.wrong]) id = _
    rw [Function.update_self, houtcomes, List.replicate_succ']

theorem VerificationInv.wrongGuess (h : VerificationInv strict w) (hk : w.attempts[k]? = some call)
    (hholds : call.holding = some id) (hrow : w.rows id = some row)
    (hverified : row.verified = false) (hstep : w.wrongGuess k call id row = some w') :
    VerificationInv strict w' := by
  obtain ⟨hid, hless, hcode, houtcomes⟩ := (course_pending hrow hverified).mp (h.course id)
  have hothers : ∀ id', id' ≠ id → Course ((w.record id .wrong).setAttempt k
      (call.at_ (.done (some false)))) id' := by
    intro id' hne
    exact (h.course id').congr rfl (Function.update_of_ne hne _ _) rfl rfl
  simp only [VerificationWorld.wrongGuess] at hstep
  split_ifs at hstep with hlast
  · -- the fifth wrong guess: the row goes, with every other one for the same key
    unfold VerificationWorld.deleteMany at hstep
    split_ifs at hstep with hlocked
    obtain rfl := Option.some.inj hstep
    obtain ⟨row', hrow', -, hkey⟩ := h.held (List.mem_of_getElem? hk) hholds
    obtain rfl := Option.some.inj (hrow.symm.trans hrow')
    refine h.settle hk hholds ⟨Nat.le_refl _, (rowsEvolve_removeRows (w := w)).rows⟩ (fun id' => ?_) rfl
      (fun hstrict => (h.timely hstrict).1) rfl fun c hc id' hid' hne =>
        removeRows_of_not_locked hlocked hc hid' (by simpa using Ne.symm hne)
    by_cases hne : id' = id
    · subst hne
      have hfinished : Finished (List.replicate 5 .wrong ++ [.removed]) :=
        .inr (.inl ⟨5, Nat.le_refl _, rfl⟩)
      have hfive : (decodeVerificationCode row.code).attempts = 4 := by
        unfold verificationMaxAttempts at hless hlast
        omega
      have hlog : w.outcomes id' ++ [.wrong, .removed] = List.replicate 5 .wrong ++ [.removed] := by
        rw [houtcomes, hfive]
        rfl
      refine (course_none ?_).mpr ⟨fun hnew => absurd hid (Nat.not_lt.mpr hnew), ?_⟩
      · simp [VerificationWorld.removeRows, VerificationWorld.record, VerificationWorld.setAttempt,
          hrow, hkey, hverified]
      · simpa [VerificationWorld.removeRows, VerificationWorld.record, VerificationWorld.setAttempt,
          hrow, hkey, hverified, hlog] using hfinished
    · exact (hothers id' hne).removeRows
  · obtain rfl := Option.some.inj hstep
    refine h.settle hk hholds (RowsEvolve.rewrite hrow rfl rfl rfl rfl fun hold => hold)
      (fun id' => ?_) rfl (fun hstrict => (h.timely hstrict).1) rfl fun c hc id' hid' hne =>
        Function.update_of_ne hne _ _
    by_cases hne : id' = id
    · subst hne
      exact (h.course id').counted hrow hverified (Nat.not_le.mp hlast)
    · exact (hothers id' hne).congr (Function.update_of_ne hne _ _) rfl rfl rfl

theorem VerificationInv.rightGuess (h : VerificationInv strict w) (hk : w.attempts[k]? = some call)
    (hholds : call.holding = some id) (hrow : w.rows id = some row)
    (hverified : row.verified = false) (hnow : call.now < row.expiresAt) :
    VerificationInv strict (w.rightGuess k call id row) := by
  obtain ⟨hid, hless, -, houtcomes⟩ := (course_pending hrow hverified).mp (h.course id)
  obtain ⟨row', hrow', -, hkey⟩ := h.held (List.mem_of_getElem? hk) hholds
  obtain rfl := Option.some.inj (hrow.symm.trans hrow')
  have hunder : call.underWay = true := by
    unfold VerifyCall.holding at hholds
    unfold VerifyCall.underWay
    cases hs : call.stage <;> simp [hs] at hholds ⊢
  refine h.settle hk hholds (RowsEvolve.rewrite hrow rfl rfl rfl rfl fun _ => rfl)
    (fun id' => ?_) rfl (fun hstrict => ?_) rfl fun c hc id' hid' hne =>
      Function.update_of_ne hne _ _
  · by_cases hne : id' = id
    · subst hne
      refine (course_verified (Function.update_self _ _ _) rfl).mpr ⟨hid, _, hless, ?_⟩
      show Function.update w.outcomes id' (w.outcomes id' ++ [.succeeded]) id' = _
      rw [Function.update_self, houtcomes]
    · exact (h.course id').congr (Function.update_of_ne hne _ _) (Function.update_of_ne hne _ _)
        rfl rfl
  · -- in time, the attempt answers before the expiry
    obtain ⟨hafter, htimely⟩ := h.timely hstrict
    have hclock : w.clock < row.expiresAt := by
      refine htimely call (List.mem_of_getElem? hk) hunder id row hrow ?_
      simp [VerificationWorld.pending, hkey, hverified, hnow]
    show (if row.expiresAt ≤ w.clock then w.afterExpiry ++ [id] else w.afterExpiry) = []
    rw [if_neg (Int.not_le.mpr hclock)]
    exact hafter

theorem VerificationInv.answer (h : VerificationInv strict w) (hk : w.attempts[k]? = some call)
    {held : Bool} {read : Option OperationVerification} (hs : call.stage = .read id held read)
    (hstep : w.answer k call id read = some w') : VerificationInv strict w' := by
  have hinv := h.attempts call (List.mem_of_getElem? hk)
  have hunder : call.underWay = true := by simp [VerifyCall.underWay, hs]
  cases read with
  | none =>
    obtain rfl := Option.some.inj hstep
    exact h.finish hk hunder _
  | some row =>
    simp only [VerificationWorld.answer] at hstep
    by_cases hstale : (row.verified || decide (row.expiresAt ≤ call.now)) = true
    · rw [if_pos hstale] at hstep
      obtain rfl := Option.some.inj hstep
      exact h.finish hk hunder _
    rw [if_neg hstale] at hstep
    simp only [Bool.or_eq_true, decide_eq_true_eq, not_or, Bool.not_eq_true] at hstale
    obtain ⟨hverified, hnow⟩ := hstale
    unfold AttemptInv at hinv
    simp only [hs] at hinv
    cases held
    · -- without the lock the row was verified or gone
      exact absurd (hinv row rfl) (by simp [hverified])
    · obtain ⟨row', hrow, -, -, hread⟩ := hinv
      obtain rfl := Option.some.inj hread
      have hholds : call.holding = some id := by simp [VerifyCall.holding, hs]
      have hless := ((course_pending hrow hverified).mp (h.course id)).2.1
      rw [if_neg (Nat.not_le.mpr hless)] at hstep
      split_ifs at hstep
      · exact h.wrongGuess hk hholds hrow hverified hstep
      · obtain rfl := Option.some.inj hstep
        exact h.rightGuess hk hholds hrow hverified (Int.not_le.mp hnow)

/-! ## The other statements -/

theorem VerificationInv.statement (h : VerificationInv strict w)
    (hk : w.attempts[k]? = some call) (hstep : w.statement k call = some w') :
    VerificationInv strict w' := by
  have hinv := h.attempts call (List.mem_of_getElem? hk)
  unfold AttemptInv at hinv
  unfold VerificationWorld.statement at hstep
  cases hs : call.stage with
  | started => simp [hs] at hstep
  | found id =>
    simp only [hs] at hstep hinv
    have hunder : call.underWay = true := by simp [VerifyCall.underWay, hs]
    split_ifs at hstep with hpending hlocked
    · obtain rfl := Option.some.inj hstep
      cases hrow : w.rows id with
      | none => simp [hrow] at hpending
      | some row =>
        have hverified : row.verified = false := by simpa [hrow] using hpending
        refine h.move hk hunder rfl rfl (fun id' hid' => .inr fun c hc hholds => hlocked ?_)
          ⟨row, hrow, hverified, hinv.2 row hrow⟩
        obtain rfl : id = id' := by simpa [VerifyCall.holding, VerifyCall.at_] using hid'
        exact List.any_eq_true.mpr ⟨c, hc, by simp [hholds, hrow]⟩
    · obtain rfl := Option.some.inj hstep
      refine h.move hk hunder rfl rfl (by simp [VerifyCall.holding, VerifyCall.at_])
        ⟨hinv.1, fun row hrow => ?_⟩
      simpa [hrow] using hpending
  | selected id held =>
    simp only [hs] at hstep hinv
    have hunder : call.underWay = true := by simp [VerifyCall.underWay, hs]
    obtain rfl := Option.some.inj hstep
    cases held
    · exact h.move hk hunder rfl rfl (by simp [VerifyCall.holding, VerifyCall.at_]) hinv.2
    · obtain ⟨row, hrow, hverified, hkey⟩ := hinv
      refine h.move hk hunder rfl rfl (fun id' hid' => .inl ?_) ⟨row, hrow, hverified, hkey, hrow⟩
      simpa [VerifyCall.holding, VerifyCall.at_, hs] using hid'
  | read id held read =>
    simp only [hs] at hstep
    exact h.answer hk hs hstep
  | done verified => simp [hs] at hstep

theorem VerificationInv.findCode (h : VerificationInv strict w) {first : Option ℕ}
    (hk : w.attempts[k]? = some call) (hstep : w.findCode k call first = some w') :
    VerificationInv strict w' := by
  unfold VerificationWorld.findCode at hstep
  cases hs : call.stage with
  | started =>
    simp only [hs] at hstep
    have hunder : call.underWay = true := by simp [VerifyCall.underWay, hs]
    split_ifs at hstep with hfirst
    cases first with
    | none =>
      obtain rfl := Option.some.inj hstep
      exact h.finish hk hunder _
    | some id =>
      obtain rfl := Option.some.inj hstep
      unfold VerificationWorld.findFirst at hfirst
      cases hrow : w.rows id with
      | none => simp [hrow] at hfirst
      | some row =>
        simp only [hrow, Option.any_some, Bool.and_eq_true] at hfirst
        have hkey : row.key = call.key := by
          have hpending := hfirst.1
          unfold VerificationWorld.pending at hpending
          simp only [Bool.and_eq_true, beq_iff_eq] at hpending
          exact hpending.1.1
        refine h.move hk hunder rfl rfl (by simp [VerifyCall.holding, VerifyCall.at_])
          ⟨h.lt_nextId hrow, fun row' hrow' => ?_⟩
        obtain rfl := Option.some.inj (hrow.symm.trans hrow')
        exact hkey
  | found | selected | read | done => simp [hs] at hstep

theorem VerificationInv.createRow (h : VerificationInv strict w) (key : VerificationKey)
    (drawn : ℕ) : VerificationInv strict (w.createRow key drawn) := by
  have hfresh : w.rows w.nextId = none := by
    cases hrow : w.rows w.nextId with
    | none => rfl
    | some row => exact absurd (h.lt_nextId hrow) (Nat.lt_irrefl _)
  have hold : ∀ id', id' ≠ w.nextId → (w.createRow key drawn).rows id' = w.rows id' :=
    fun id' hne => Function.update_of_ne hne _ _
  refine h.change ⟨Nat.le_succ _, fun id' row' hrow' => ?_⟩ (fun id' => ?_) rfl
    (fun hstrict => (h.timely hstrict).1) h.lock fun c hc => .inr ⟨hc, fun id' hid' => hold id' ?_⟩
  · by_cases hne : id' = w.nextId
    · subst hne
      simp only [VerificationWorld.createRow, Function.update_self, Option.some.injEq] at hrow'
      subst hrow'
      refine .inr ⟨Nat.le_refl _, ?_⟩
      exact Int.lt_add_of_pos_right _ (by decide)
    · rw [hold id' hne] at hrow'
      exact .inl ⟨row', hrow', rfl, rfl, fun hverified => hverified⟩
  · have hbefore := h.course id'
    by_cases hne : id' = w.nextId
    · subst hne
      have houtcomes := ((course_none hfresh).mp hbefore).1 (Nat.le_refl _)
      refine (course_pending (Function.update_self _ _ _) rfl).mpr ⟨Nat.lt_succ_self _, ?_⟩
      rw [decode_generate]
      exact ⟨Nat.zero_lt_succ 4, (Function.update_self w.nextId _ w.issued).symm, houtcomes⟩
    · cases hrow : w.rows id' with
      | none =>
        obtain ⟨hnew, hfinished⟩ := (course_none hrow).mp hbefore
        exact (course_none ((hold id' hne).trans hrow)).mpr
          ⟨fun hid => hnew (Nat.le_of_succ_le hid), hfinished⟩
      | some row =>
        have hissued : (w.createRow key drawn).issued id' = w.issued id' :=
          Function.update_of_ne hne _ _
        cases hverified : row.verified
        · obtain ⟨hid, hless, hcode, houtcomes⟩ := (course_pending hrow hverified).mp hbefore
          exact (course_pending ((hold id' hne).trans hrow) hverified).mpr
            ⟨Nat.lt_succ_of_lt hid, hless, hcode.trans hissued.symm, houtcomes⟩
        · obtain ⟨hid, houtcomes⟩ := (course_verified hrow hverified).mp hbefore
          exact (course_verified ((hold id' hne).trans hrow) hverified).mpr
            ⟨Nat.lt_succ_of_lt hid, houtcomes⟩
  · obtain ⟨row, hrow, -, -⟩ := h.held hc hid'
    exact Nat.ne_of_lt (h.lt_nextId hrow)

theorem VerificationInv.setClaim (h : VerificationInv strict w) (claim : ClaimCall) :
    VerificationInv strict (w.setClaim k claim) :=
  ⟨fun id => (h.course id).congr rfl rfl rfl rfl, h.attempts, h.lock, h.timely⟩

theorem VerificationInv.deleteVerified (h : VerificationInv strict w) {claim : ClaimCall}
    (hstep : w.deleteVerified k claim = some w') : VerificationInv strict w' := by
  unfold VerificationWorld.deleteVerified at hstep
  cases hs : claim.stage with
  | started | done => simp [hs] at hstep
  | found id =>
    simp only [hs] at hstep
    split_ifs at hstep with hlocked hclaimable
    · obtain rfl := Option.some.inj hstep
      cases hrow : w.rows id with
      | none => simp [hrow] at hclaimable
      | some row =>
        have hverified : row.verified = true := by
          have hclaimed : VerificationWorld.claimable claim row = true := by
            simpa [hrow] using hclaimable
          unfold VerificationWorld.claimable at hclaimed
          exact (Bool.and_eq_true_iff.mp hclaimed).1
        obtain ⟨hid, n, hn, houtcomes⟩ := (course_verified hrow hverified).mp (h.course id)
        refine h.change ⟨Nat.le_refl _, fun id' row' hrow' => .inl ?_⟩ (fun id' => ?_) rfl
          (fun hstrict => (h.timely hstrict).1) h.lock
          fun c hc => .inr ⟨hc, fun id' hid' => Function.update_of_ne ?_ _ _⟩
        · have hne : id' ≠ id := by
            rintro rfl
            exact absurd ((Function.update_self _ _ _).symm.trans hrow') (by simp)
          have hbefore : w.rows id' = some row' :=
            (Function.update_of_ne hne _ _).symm.trans hrow'
          exact ⟨row', hbefore, rfl, rfl, fun hold => hold⟩
        · by_cases hne : id' = id
          · subst hne
            refine (course_none (Function.update_self _ _ _)).mpr
              ⟨fun hnew => absurd hid (Nat.not_lt.mpr hnew), .inr (.inr ⟨n, hn, .inr ?_⟩)⟩
            show Function.update w.outcomes id' (w.outcomes id' ++ [.claimed]) id' = _
            rw [Function.update_self, houtcomes, List.append_assoc]
            rfl
          · exact (h.course id').congr (Function.update_of_ne hne _ _)
              (Function.update_of_ne hne _ _) rfl rfl
        · -- a row that an attempt has locked is not verified
          rintro rfl
          obtain ⟨row', hrow', hpending, -⟩ := h.held hc hid'
          obtain rfl := Option.some.inj (hrow.symm.trans hrow')
          exact absurd (hverified.symm.trans hpending) (by simp)
    · obtain rfl := Option.some.inj hstep
      exact h.setClaim _

theorem VerificationInv.tick (h : VerificationInv strict w) {elapsed : ℕ}
    (hok : strict → inTime w (.tick elapsed) = true) :
    VerificationInv strict { w with clock := w.clock + elapsed } where
  course := fun id => (h.course id).congr rfl rfl rfl rfl
  attempts := h.attempts
  lock := h.lock
  timely := by
    intro hstrict
    refine ⟨(h.timely hstrict).1, fun call hcall hunder id row hrow hpending => ?_⟩
    have hall := hok hstrict
    unfold inTime at hall
    have hcall' := List.all_eq_true.mp hall call hcall
    simp only [hunder, Bool.not_true, Bool.false_or] at hcall'
    have hid := List.all_eq_true.mp hcall' id (List.mem_range.mpr (h.lt_nextId hrow))
    have hrow' : w.rows id = some row := hrow
    simpa [hrow', hpending] using hid

theorem VerificationInv.begin (h : VerificationInv strict w) (key : VerificationKey)
    (code : List Char) :
    VerificationInv strict { w with
      attempts := w.attempts ++ [{ key, code, now := w.clock, stage := .started }] } where
  course := fun id => (h.course id).congr rfl rfl rfl rfl
  attempts := by
    intro c hc
    rcases List.mem_append.mp hc with hc | hc
    · exact h.attempts c hc
    · obtain rfl := List.mem_singleton.mp hc
      trivial
  lock := fun id => (h.lock id).append_singleton (by simp [VerifyCall.holding])
  timely := by
    intro hstrict
    refine ⟨(h.timely hstrict).1, fun c hc hunder id row hrow hpending => ?_⟩
    rcases List.mem_append.mp hc with hc | hc
    · exact (h.timely hstrict).2 c hc hunder id row hrow hpending
    · obtain rfl := List.mem_singleton.mp hc
      unfold VerificationWorld.pending at hpending
      exact of_decide_eq_true (Bool.and_eq_true_iff.mp hpending).2

/-! ## Runs -/

theorem VerificationInv.step {event : VerificationEvent} (h : VerificationInv strict w)
    (hok : strict → inTime w event = true) (hstep : verificationStep w event = some w') :
    VerificationInv strict w' := by
  cases event with
  | tick elapsed =>
    obtain rfl := Option.some.inj hstep
    exact h.tick hok
  | deleteExpired userId => exact h.deleteMany hstep
  | deleteExisting id =>
    simp only [verificationStep] at hstep
    split_ifs at hstep
    exact h.deleteMany hstep
  | create key drawn =>
    simp only [verificationStep] at hstep
    split_ifs at hstep
    obtain rfl := Option.some.inj hstep
    exact h.createRow key drawn
  | deleteUnsent userId operationType code => exact h.deleteMany hstep
  | verifyOperationCode key code =>
    obtain rfl := Option.some.inj hstep
    exact h.begin key code
  | findCode k first =>
    simp only [verificationStep] at hstep
    split at hstep
    · cases hstep
    · rename_i call hk
      exact h.findCode hk hstep
  | statement k =>
    simp only [verificationStep] at hstep
    split at hstep
    · cases hstep
    · rename_i call hk
      exact h.statement hk hstep
  | crash k =>
    simp only [verificationStep] at hstep
    split at hstep
    · cases hstep
    · rename_i call hk
      split_ifs at hstep with hunder
      obtain rfl := Option.some.inj hstep
      exact h.finish hk hunder _
  | claimOperationVerification key =>
    obtain rfl := Option.some.inj hstep
    exact ⟨fun id => (h.course id).congr rfl rfl rfl rfl, h.attempts, h.lock, h.timely⟩
  | findVerified k first =>
    simp only [verificationStep] at hstep
    split at hstep
    · cases hstep
    · rename_i claim hk
      unfold VerificationWorld.findVerified at hstep
      split at hstep
      · split_ifs at hstep
        cases first <;> obtain rfl := Option.some.inj hstep <;> exact h.setClaim _
      · cases hstep
  | deleteVerified k =>
    simp only [verificationStep] at hstep
    split at hstep
    · cases hstep
    · exact h.deleteVerified hstep
  | consumeOperationVerification key => exact h.deleteMany hstep

/-- What every code comes to: wrong guesses, then perhaps one success, then perhaps its end. -/
def Lawful (outcomes : List VerificationOutcome) : Prop :=
  ∃ n rest, outcomes = List.replicate n .wrong ++ rest ∧ n ≤ verificationMaxAttempts ∧
    (rest = [] ∨ rest = [.removed] ∨ n < verificationMaxAttempts ∧
      (rest = [.succeeded] ∨ rest = [.succeeded, .removed] ∨ rest = [.succeeded, .claimed]))

theorem Course.lawful (h : Course w id) : Lawful (w.outcomes id) := by
  cases hrow : w.rows id with
  | none =>
    obtain ⟨-, hempty | ⟨n, hn, hlog⟩ | ⟨n, hn, hlog | hlog⟩⟩ := (course_none hrow).mp h
    · exact ⟨0, [], hempty, Nat.zero_le _, .inl rfl⟩
    · exact ⟨n, _, hlog, hn, .inr (.inl rfl)⟩
    · exact ⟨n, _, hlog, Nat.le_of_lt hn, .inr (.inr ⟨hn, .inr (.inl rfl)⟩)⟩
    · exact ⟨n, _, hlog, Nat.le_of_lt hn, .inr (.inr ⟨hn, .inr (.inr rfl)⟩)⟩
  | some row =>
    cases hverified : row.verified
    · obtain ⟨-, hless, -, hlog⟩ := (course_pending hrow hverified).mp h
      exact ⟨_, [], by rw [hlog, List.append_nil], Nat.le_of_lt hless, .inl rfl⟩
    · obtain ⟨-, n, hn, hlog⟩ := (course_verified hrow hverified).mp h
      exact ⟨n, _, hlog, Nat.le_of_lt hn, .inr (.inr ⟨hn, .inl rfl⟩)⟩

theorem Lawful.counts {outcomes : List VerificationOutcome} (h : Lawful outcomes) :
    outcomes.count .wrong ≤ 5 ∧ outcomes.count .succeeded ≤ 1 ∧ outcomes.count .claimed ≤ 1 := by
  obtain ⟨n, rest, rfl, hn, hrest⟩ := h
  unfold verificationMaxAttempts at hn
  rcases hrest with rfl | rfl | ⟨-, rfl | rfl | rfl⟩ <;>
    simp [List.count_append, List.count_replicate, hn]

/-- Where a success stands behind some wrong guesses, there is nothing else before it. -/
theorem Lawful.first {outcomes before after : List VerificationOutcome} (h : Lawful outcomes)
    (hsplit : outcomes = before ++ .succeeded :: after) :
    before.length < 5 ∧ before = List.replicate before.length .wrong := by
  obtain ⟨n, rest, hlog, -, hrest⟩ := h
  have hrun : ∀ (n : ℕ) (before : List VerificationOutcome),
      List.replicate n .wrong ++ rest = before ++ .succeeded :: after →
      rest.head? = some .succeeded → .succeeded ∉ rest.tail →
      before = List.replicate n .wrong := by
    intro n
    induction n with
    | zero =>
      intro before heq hhead htail
      cases before with
      | nil => rfl
      | cons x before =>
        rw [List.replicate_zero, List.nil_append] at heq
        rw [heq] at htail
        exact absurd (by simp) htail
    | succ n ih =>
      intro before heq hhead htail
      cases before with
      | nil => simp [List.replicate_succ] at heq
      | cons x before =>
        rw [List.replicate_succ, List.cons_append, List.cons_append, List.cons.injEq] at heq
        rw [ih before heq.2 hhead htail, ← heq.1, List.replicate_succ]
  have hsome : .succeeded ∈ List.replicate n .wrong ++ rest := by
    rw [← hlog, hsplit]
    simp
  have hwrongs := hrun n before (hlog.symm.trans hsplit)
  rcases hrest with rfl | rfl | ⟨hn, rfl | rfl | rfl⟩
  · simp [List.mem_replicate] at hsome
  · simp [List.mem_replicate] at hsome
  all_goals
    rw [hwrongs rfl (by simp), List.length_replicate]
    exact ⟨hn, rfl⟩

theorem VerificationInv.codesGuarded (h : VerificationInv strict w) : CodesGuarded w where
  guesses := fun id => (h.course id).lawful.counts.1
  once := fun id => (h.course id).lawful.counts.2.1
  claimedOnce := fun id => (h.course id).lawful.counts.2.2
  first := fun id _ _ hsplit => (h.course id).lawful.first hsplit

theorem verificationInv_start (strict : Prop) (clock : Time) :
    VerificationInv strict { clock } where
  course := fun id => (course_none rfl).mpr ⟨fun _ => rfl, .inl rfl⟩
  attempts := fun call hcall => by cases hcall
  lock := fun _ => Exclusive.nil
  timely := fun _ => ⟨rfl, fun call hcall => by cases hcall⟩

end Steps

/-- However attempts, claims and requests interleave, every code has at most five wrong guesses,
one success and one claim, and no success once it was used, removed or exhausted; and if no
attempt waits past the expiry, no success comes after it. -/
theorem verification_guarded {clock : Time} {w : VerificationWorld}
    (hrun : Machine.Reach verificationStep Machine.free { clock } w) :
    CodesGuarded w ∧
      (Machine.Reach verificationStep (fun w event => inTime w event = true) { clock } w →
        w.afterExpiry = []) := by
  constructor
  · have hinv : VerificationInv False w := by
      refine hrun.invariant (P := VerificationInv False) (verificationInv_start False clock) ?_
      intro t u event ht _ hstep
      exact ht.step False.elim hstep
    exact hinv.codesGuarded
  · intro htimely
    have hinv : VerificationInv True w := by
      refine htimely.invariant (P := VerificationInv True) (verificationInv_start True clock) ?_
      intro t u event ht hok hstep
      exact ht.step (fun _ => hok) hstep
    exact (hinv.timely trivial).1

/-- The key of the runs below. -/
def reinstallKey : VerificationKey :=
  .ofRequest 7 .reinstallInstance (some 42)

/-- Two wrong guesses at once, of which the second waits for the row; a right one; two claims. -/
def guessedRun : List VerificationEvent :=
  [.create reinstallKey 123456, .tick 1000,
   .verifyOperationCode reinstallKey "111111".toList,
   .verifyOperationCode reinstallKey "222222".toList,
   .findCode 0 (some 1), .findCode 1 (some 1),
   .statement 0, .statement 0, .statement 0, .statement 1, .statement 1, .statement 1,
   .verifyOperationCode reinstallKey "123456".toList,
   .findCode 2 (some 1), .statement 2, .statement 2, .statement 2,
   .claimOperationVerification reinstallKey, .claimOperationVerification reinstallKey,
   .findVerified 0 (some 1), .findVerified 1 (some 1), .deleteVerified 1, .deleteVerified 0]

theorem verification_guarded_run :
    ∃ w, Machine.exec (Machine.guarded verificationStep inTime) { clock := 0 } guessedRun =
        some w ∧
      w.outcomes 1 = [.wrong, .wrong, .succeeded, .claimed] ∧
      CodesGuarded w ∧ w.afterExpiry = [] := by
  have hvalues : (Machine.exec (Machine.guarded verificationStep inTime) { clock := 0 }
      guessedRun).map (fun w => w.outcomes 1) =
      some [.wrong, .wrong, .succeeded, .claimed] := by decide +kernel
  obtain ⟨w, hexec, hw⟩ := Option.map_eq_some_iff.mp hvalues
  have htimely := Machine.reach_of_exec_guarded hexec
  have hguarded := verification_guarded (htimely.mono fun _ _ _ => trivial)
  exact ⟨w, hexec, hw, hguarded.1, hguarded.2 htimely⟩

/-- An attempt begins a millisecond before the expiry, finds the code, and answers a millisecond
after it. -/
def lateRun : List VerificationEvent :=
  [.create reinstallKey 123456, .tick 599999,
   .verifyOperationCode reinstallKey "123456".toList, .findCode 0 (some 1), .tick 2,
   .statement 0, .statement 0, .statement 0]

/-- A success after the expiry. -/
theorem success_after_expiry :
    ∃ w, Machine.Reach verificationStep Machine.free { clock := 0 } w ∧
      w.clock = 600001 ∧ (w.rows 1).map OperationVerification.expiresAt = some 600000 ∧
      w.outcomes 1 = [.succeeded] ∧ w.afterExpiry ≠ [] := by
  have hvalues : (Machine.exec verificationStep { clock := 0 } lateRun).map (fun w =>
      (w.clock, (w.rows 1).map OperationVerification.expiresAt, w.outcomes 1, w.afterExpiry)) =
      some (600001, some 600000, [.succeeded], [1]) := by decide +kernel
  obtain ⟨w, hexec, hw⟩ := Option.map_eq_some_iff.mp hvalues
  simp only [Prod.mk.injEq] at hw
  refine ⟨w, Machine.reach_of_exec hexec, hw.1, hw.2.1, hw.2.2.1, ?_⟩
  rw [hw.2.2.2]
  exact List.cons_ne_nil _ _

end Incudal
