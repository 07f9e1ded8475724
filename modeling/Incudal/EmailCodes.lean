/-
# `EmailCodes` — how often a code is sent, and how often it is guessed

The codes of one e-mail address.  A new code is issued after a count of those of
the last hour, and a guess that misses is counted after it has been compared;
the fifth makes the code void.

The count is taken over rows that issuing, accepting and voiding delete, so it
never reaches its limit (`six_codes_within_an_hour`).  The guesses are counted
late, on a counter with a window of its own, which may run out, be lost, or be
reset by a call that has nothing to do with the code.  What has to be so for the
limits to hold is `limitsHold`; the bound on the codes then comes from counting
a call that has passed the check as a code (`underway`), and the bound on the
guesses from counting a guess as soon as it has missed (`charged`).
-/
import Incudal.Basic
import Incudal.Lib.Machine
import Mathlib.Algebra.Order.Ring.Int
import Mathlib.Data.List.Nodup

namespace Incudal

/-! ## Rows and constants -/

def CODE_EXPIRATION_MINUTES : ℕ := 10

def MAX_CODES_PER_HOUR : ℕ := 5

def MAX_VERIFY_FAILURES : ℕ := 5

def VERIFY_FAILURE_WINDOW_MS : Time := 60 * 60 * 1000

/-- The hour of the limit on codes. -/
def codesWindow : Time := 60 * 60 * 1000

/-- A row of `email_verification_codes`, of the address. -/
structure EmailVerificationCode where
  id : ℕ
  code : String
  expiresAt : Time
  createdAt : Time
deriving DecidableEq, Repr

/-- The counter of failures in the shared store. -/
structure FailureCounter where
  count : ℕ
  expiresAt : Time
deriving DecidableEq, Repr

/-- A code that has been issued, and the wrong guesses that were compared with it while it was
good. -/
structure IssuedCode where
  id : ℕ
  issuedAt : Time
  expiresAt : Time
  evaluated : ℕ := 0
deriving DecidableEq, Repr

/-- A code that was accepted, and the one that was the latest then. -/
structure AcceptedCode where
  id : ℕ
  time : Time
  latest : Option ℕ
deriving DecidableEq, Repr

/-- Where a call is, by what it does next.  `counting` to `inserting` are those of
`createVerificationCode`, `guessing` to `voiding` those of `verifyCode`. -/
inductive CodeCall
  | counting | clearing | inserting
  | guessing (code : String) | accepted | missed | resetting | voiding
  | limited
  | created (code : String) (expiresAt : Time)
  | answered (valid : Bool)
  | failed
deriving DecidableEq, Repr

structure CodeWorld where
  clock : Time := 0
  rows : List EmailVerificationCode := []
  nextId : ℕ := 1
  failures : Option FailureCounter := none
  calls : List CodeCall := []
  /-- what has been issued and accepted, in order -/
  issued : List IssuedCode := []
  accepted : List AcceptedCode := []
deriving DecidableEq, Repr

inductive CodeEvent
  | createVerificationCode
  | verifyCode (code : String)
  /-- the next statement of a call; `drawn` is the random number of a new code -/
  | next (k drawn : ℕ)
  /-- a call ends with an error, or without what it had still to do -/
  | fail (k : ℕ)
  /-- the store drops the counter -/
  | loseFailures
  /-- the daily deletion of expired codes -/
  | cleanupExpiredCodes
  | tick (now : Time)
deriving DecidableEq, Repr

/-! ## Statements -/

/-- `/^\d{6}$/`. -/
def isSixDigits (code : String) : Bool := code.length == 6 && code.toList.all Char.isDigit

/-- `generateVerificationCode`, for a number from 100000 to 999999. -/
def emailCodeOf (drawn : ℕ) : Option String :=
  if 100000 ≤ drawn ∧ drawn ≤ 999999 then some (toString drawn) else none

namespace CodeWorld

variable (w : CodeWorld)

def goto (k : ℕ) (call : CodeCall) : CodeWorld := { w with calls := w.calls.set k call }

/-- `recentCount`. -/
def recentRows : ℕ := (w.rows.filter fun r => w.clock - codesWindow ≤ r.createdAt).length

/-- The code is good now. -/
def live (r : EmailVerificationCode) : Prop := w.clock < r.expiresAt

instance (r : EmailVerificationCode) : Decidable (w.live r) :=
  inferInstanceAs (Decidable (_ < _))

/-- The insertion of a new code. -/
def insert (k : ℕ) (code : String) : CodeWorld :=
  let expiresAt := w.clock + CODE_EXPIRATION_MINUTES * 60 * 1000
  { w with
      rows := w.rows ++ [{ id := w.nextId, code, expiresAt, createdAt := w.clock }]
      nextId := w.nextId + 1
      calls := w.calls.set k (.created code expiresAt)
      issued := w.issued ++ [{ id := w.nextId, issuedAt := w.clock, expiresAt }] }

/-- The rows that a guess matches. -/
def matching (code : String) : List EmailVerificationCode :=
  w.rows.filter fun r => r.code == code && decide (w.live r)

/-- `deleteMany` of the rows that match, and what it says of the guess. -/
def guess (k : ℕ) (code : String) : CodeWorld :=
  if w.matching code = [] then
    { w with
        calls := w.calls.set k .missed
        issued := w.issued.map fun c =>
          if w.rows.any fun r => r.id == c.id && decide (w.live r) then
            { c with evaluated := c.evaluated + 1 }
          else c }
  else
    { w with
        rows := w.rows.filter fun r => !(r.code == code && decide (w.live r))
        calls := w.calls.set k .accepted
        accepted := w.accepted ++ (w.matching code).map fun r =>
          { id := r.id, time := w.clock, latest := w.issued.getLast?.map (·.id) } }

/-- The value of the counter, if it has not run out. -/
def liveFailures : ℕ :=
  match w.failures with
  | none => 0
  | some counter => if counter.expiresAt < w.clock then 0 else counter.count

/-- `sharedIncrement`: a counter that has run out starts again. -/
def increment : FailureCounter :=
  match w.failures with
  | none => ⟨1, w.clock + VERIFY_FAILURE_WINDOW_MS⟩
  | some counter =>
      if counter.expiresAt < w.clock then ⟨1, w.clock + VERIFY_FAILURE_WINDOW_MS⟩
      else { counter with count := counter.count + 1 }

/-- `registerVerifyFailure` up to its test. -/
def registerVerifyFailure (k : ℕ) : CodeWorld :=
  { w with
      failures := some w.increment
      calls := w.calls.set k
        (if MAX_VERIFY_FAILURES ≤ w.increment.count then .resetting else .answered false) }

/-- The next statement of a call. -/
def next (k drawn : ℕ) : Option CodeWorld :=
  match w.calls[k]? with
  | some .counting =>
      some (w.goto k (if MAX_CODES_PER_HOUR ≤ w.recentRows then .limited else .clearing))
  | some .clearing => some { w with rows := [], calls := w.calls.set k .inserting }
  | some .inserting => (emailCodeOf drawn).map (w.insert k)
  | some (.guessing code) => some (w.guess k code)
  | some .accepted => some { w with failures := none, calls := w.calls.set k (.answered true) }
  | some .missed => some (w.registerVerifyFailure k)
  | some .resetting => some { w with failures := none, calls := w.calls.set k .voiding }
  | some .voiding => some { w with rows := [], calls := w.calls.set k (.answered false) }
  | _ => none

end CodeWorld

/-- One statement of one call, or something else that happens to the table or the store. -/
def codeStep (w : CodeWorld) : CodeEvent → Option CodeWorld
  | .createVerificationCode => some { w with calls := w.calls ++ [.counting] }
  | .verifyCode code =>
      some { w with
        calls := w.calls ++ [if isSixDigits code then .guessing code else .answered false] }
  | .next k drawn => w.next k drawn
  | .fail k => some (w.goto k .failed)
  | .loseFailures => some { w with failures := none }
  | .cleanupExpiredCodes =>
      some { w with rows := w.rows.filter fun r => !decide (r.expiresAt < w.clock) }
  | .tick now => if w.clock ≤ now then some { w with clock := now } else none

/-! ## What is promised, and when it is kept -/

/-- The codes issued from `t` on, for an hour. -/
def issuedFrom (issued : List IssuedCode) (t : Time) : List IssuedCode :=
  issued.filter fun c => t ≤ c.issuedAt ∧ c.issuedAt ≤ t + codesWindow

/-- No hour has more codes than the limit, and no code more wrong guesses; each is accepted once
at most, before it expires and as the latest. -/
structure CodesLimited (w : CodeWorld) : Prop where
  hourly : ∀ t, (issuedFrom w.issued t).length ≤ MAX_CODES_PER_HOUR
  guesses : ∀ c ∈ w.issued, c.evaluated ≤ MAX_VERIFY_FAILURES
  once : (w.accepted.map AcceptedCode.id).Nodup
  valid : ∀ a ∈ w.accepted, ∃ c ∈ w.issued, c.id = a.id ∧ a.time < c.expiresAt ∧
    a.latest = some c.id

/-- A call that has passed the check and is to issue a code. -/
def CodeCall.reserves : CodeCall → ℕ
  | .clearing | .inserting => 1
  | _ => 0

/-- What a call has still to put on the counter; one that has reset it is to make all void. -/
def CodeCall.charges : CodeCall → ℕ
  | .missed => 1
  | .voiding => MAX_VERIFY_FAILURES
  | _ => 0

namespace CodeWorld

variable (w : CodeWorld)

/-- The codes of the last hour, deleted or not. -/
def recentlyIssued : ℕ := (w.issued.filter fun c => w.clock - codesWindow ≤ c.issuedAt).length

def underway : ℕ := (w.calls.map CodeCall.reserves).sum

def charged : ℕ := w.liveFailures + (w.calls.map CodeCall.charges).sum

/-- No code that is good now has been guessed at. -/
def noneGuessed : Bool :=
  w.rows.all fun r => !decide (w.live r) || w.issued.all fun c => c.id != r.id || c.evaluated == 0

end CodeWorld

/-- The steps within the limits.  A call passes the check only where the codes of the last hour
and the calls that have passed it are fewer than the limit; a code is inserted into an empty
table; a guess is compared with a good code only where the failures, counted or about to be, are
fewer than theirs; and the counter is reset, lost, left out or outlived only while no good code
has been guessed at. -/
def limitsHold (w : CodeWorld) : CodeEvent → Bool
  | .next k _ =>
      match w.calls[k]? with
      | some .counting =>
          decide (MAX_CODES_PER_HOUR ≤ w.recentRows) ||
            decide (w.recentlyIssued + w.underway < MAX_CODES_PER_HOUR)
      | some .inserting => w.rows.isEmpty
      | some (.guessing code) =>
          !(w.matching code).isEmpty || !(w.rows.any fun r => decide (w.live r)) ||
            decide (w.charged < MAX_VERIFY_FAILURES)
      | some .accepted => w.noneGuessed
      | _ => true
  | .fail k =>
      match w.calls[k]? with
      | some .missed | some .voiding => w.noneGuessed
      | _ => true
  | .loseFailures => w.noneGuessed
  | .tick now =>
      let w' := { w with clock := now }
      decide (w.liveFailures ≤ w'.liveFailures) || w'.noneGuessed
  | _ => true

/-! ## The invariant -/

structure CodesInv (w : CodeWorld) : Prop where
  issuedIds : (w.issued.map IssuedCode.id).Nodup
  issuedBelow : ∀ c ∈ w.issued, c.id < w.nextId
  acceptedBelow : ∀ a ∈ w.accepted, a.id < w.nextId
  /-- the table has one row at most, the latest code, and that has not been accepted -/
  one : w.rows.length ≤ 1
  latest : ∀ r ∈ w.rows, ∃ c, w.issued.getLast? = some c ∧ c.id = r.id ∧ c.expiresAt = r.expiresAt
  unused : ∀ r ∈ w.rows, r.id ∉ w.accepted.map AcceptedCode.id
  reserved : w.recentlyIssued + w.underway ≤ MAX_CODES_PER_HOUR
  covered : ∀ r ∈ w.rows, w.live r → ∀ c ∈ w.issued, c.id = r.id → c.evaluated ≤ w.charged
  limited : CodesLimited w

section Invariant

variable {w w' : CodeWorld} {k drawn : ℕ} {call call' : CodeCall} {code : String}
  {event : CodeEvent} {r : EmailVerificationCode}

variable (call') in
/-- What the calls weigh together when one of them goes on. -/
theorem sum_map_set {calls : List CodeCall} (weight : CodeCall → ℕ) (h : calls[k]? = some call) :
    ((calls.set k call').map weight).sum + weight call = (calls.map weight).sum + weight call' := by
  induction calls generalizing k with
  | nil => cases h
  | cons first calls ih =>
      cases k with
      | zero =>
          obtain rfl := Option.some.inj h
          simp only [List.set_cons_zero, List.map_cons, List.sum_cons]
          omega
      | succ k =>
          have := ih h
          simp only [List.set_cons_succ, List.map_cons, List.sum_cons]
          omega

/-- A call that goes on to weigh no more. -/
theorem sum_map_set_le {calls : List CodeCall} (weight : CodeCall → ℕ)
    (h : ∀ call, calls[k]? = some call → weight call' ≤ weight call) :
    ((calls.set k call').map weight).sum ≤ (calls.map weight).sum := by
  cases hcall : calls[k]? with
  | none =>
      rw [List.set_eq_of_length_le (List.getElem?_eq_none_iff.mp hcall)]
  | some call =>
      have := sum_map_set call' weight hcall
      have := h call hcall
      omega

theorem sum_map_concat {calls : List CodeCall} (weight : CodeCall → ℕ) (h : weight call = 0) :
    ((calls ++ [call]).map weight).sum = (calls.map weight).sum := by
  rw [List.map_append, List.sum_append, List.map_singleton, List.sum_singleton, h, Nat.add_zero]

/-- Steps that issue and accept nothing and leave no more rows. -/
theorem CodesInv.move (h : CodesInv w) (hrows : w'.rows.Sublist w.rows)
    (hissued : w'.issued = w.issued) (haccepted : w'.accepted = w.accepted)
    (hnext : w'.nextId = w.nextId) (hclock : w'.clock = w.clock)
    (hreserved : w'.recentlyIssued + w'.underway ≤ MAX_CODES_PER_HOUR)
    (hcovered : ∀ r ∈ w'.rows, w.live r → ∀ c ∈ w.issued, c.id = r.id →
      c.evaluated ≤ w'.charged) : CodesInv w' where
  issuedIds := hissued ▸ h.issuedIds
  issuedBelow := by
    rw [hissued, hnext]
    exact h.issuedBelow
  acceptedBelow := by
    rw [haccepted, hnext]
    exact h.acceptedBelow
  one := hrows.length_le.trans h.one
  latest r hr := by
    rw [hissued]
    exact h.latest r (hrows.subset hr)
  unused r hr := by
    rw [haccepted]
    exact h.unused r (hrows.subset hr)
  reserved := hreserved
  covered r hr hlive := by
    rw [hissued]
    rw [CodeWorld.live, hclock] at hlive
    exact hcovered r hr hlive
  limited := by
    obtain ⟨hhourly, hguesses, honce, hvalid⟩ := h.limited
    refine ⟨?_, ?_, ?_, ?_⟩
    · rw [hissued]
      exact hhourly
    · rw [hissued]
      exact hguesses
    · rw [haccepted]
      exact honce
    · rw [hissued, haccepted]
      exact hvalid

theorem noneGuessed_spec (h : w.noneGuessed = true) (hr : r ∈ w.rows) (hlive : w.live r) :
    ∀ c ∈ w.issued, c.id = r.id → c.evaluated = 0 := by
  intro c hc hid
  have hrow := List.all_eq_true.mp h r hr
  rw [decide_eq_true hlive, Bool.not_true, Bool.false_or] at hrow
  have hcode := List.all_eq_true.mp hrow c hc
  rw [Bool.or_eq_true, bne_iff_ne, beq_iff_eq] at hcode
  exact hcode.resolve_left (not_not.mpr hid)

/-- Nothing is issued and no more calls are under way. -/
theorem CodesInv.reserved_of_le (h : CodesInv w) (hissued : w'.issued = w.issued)
    (hclock : w'.clock = w.clock)
    (hcalls : (w'.calls.map CodeCall.reserves).sum ≤ (w.calls.map CodeCall.reserves).sum) :
    w'.recentlyIssued + w'.underway ≤ MAX_CODES_PER_HOUR := by
  have := h.reserved
  unfold CodeWorld.recentlyIssued CodeWorld.underway at this ⊢
  rw [hissued, hclock]
  omega

/-- A new call, or one that is over. -/
theorem CodesInv.start (h : CodesInv w) (hreserves : call.reserves = 0)
    (hcharges : call.charges = 0) : CodesInv { w with calls := w.calls ++ [call] } := by
  refine h.move (.refl _) rfl rfl rfl rfl (h.reserved_of_le rfl rfl ?_) fun r hr hlive c hc hid => ?_
  · exact (sum_map_concat _ hreserves).le
  · have := h.covered r hr hlive c hc hid
    unfold CodeWorld.charged at this ⊢
    rw [sum_map_concat _ hcharges]
    exact this

/-- The check of the limit. -/
theorem CodesInv.count (h : CodesInv w) (hcall : w.calls[k]? = some .counting)
    (hok : limitsHold w (.next k drawn) = true) :
    CodesInv (w.goto k (if MAX_CODES_PER_HOUR ≤ w.recentRows then .limited else .clearing)) := by
  simp only [limitsHold, hcall, Bool.or_eq_true, decide_eq_true_eq] at hok
  refine h.move (.refl _) rfl rfl rfl rfl ?_ fun r hr hlive c hc hid => ?_
  · split
    · refine h.reserved_of_le rfl rfl (sum_map_set_le _ fun call _ => Nat.zero_le _)
    · rename_i hpasses
      have hroom := hok.resolve_left hpasses
      have hsum := sum_map_set .clearing CodeCall.reserves hcall
      show w.recentlyIssued + ((w.calls.set k .clearing).map CodeCall.reserves).sum ≤ _
      unfold CodeWorld.underway at hroom
      simp only [CodeCall.reserves] at hsum
      omega
  · have hcovered := h.covered r hr hlive c hc hid
    have hsum := sum_map_set (if MAX_CODES_PER_HOUR ≤ w.recentRows then .limited
      else .clearing) CodeCall.charges hcall
    have hzero : (if MAX_CODES_PER_HOUR ≤ w.recentRows then CodeCall.limited
      else .clearing).charges = 0 := by split <;> rfl
    rw [hzero] at hsum
    show c.evaluated ≤ w.liveFailures + ((w.calls.set k _).map CodeCall.charges).sum
    unfold CodeWorld.charged at hcovered
    simp only [CodeCall.charges] at hsum
    omega

/-- All rows are gone. -/
theorem CodesInv.clear (h : CodesInv w) (hle : ∀ call, w.calls[k]? = some call →
    call'.reserves ≤ call.reserves) :
    CodesInv { w with rows := [], calls := w.calls.set k call' } :=
  h.move (List.nil_sublist _) rfl rfl rfl rfl (h.reserved_of_le rfl rfl (sum_map_set_le _ hle)) nofun

/-- A step after which the failures that are charged are no fewer, or nothing has been guessed. -/
theorem CodesInv.recount (h : CodesInv w) {failures : Option FailureCounter}
    (hreserves : call'.reserves = 0)
    (hcharged : ∀ r ∈ w.rows, w.live r → ∀ c ∈ w.issued, c.id = r.id → c.evaluated ≤
      CodeWorld.charged { w with failures := failures, calls := w.calls.set k call' }) :
    CodesInv { w with failures := failures, calls := w.calls.set k call' } := by
  refine h.move (.refl _) rfl rfl rfl rfl (h.reserved_of_le rfl rfl (sum_map_set_le _ ?_)) hcharged
  intro call _
  rw [hreserves]
  exact Nat.zero_le _

/-- The failure of a guess goes from its call to the counter. -/
theorem CodesInv.registerVerifyFailure (h : CodesInv w) (hcall : w.calls[k]? = some .missed) :
    CodesInv (w.registerVerifyFailure k) := by
  generalize hnext : (if MAX_VERIFY_FAILURES ≤ w.increment.count then CodeCall.resetting
    else .answered false) = next
  have hreserves : next.reserves = 0 := by rw [← hnext]; split <;> rfl
  have hcharges : next.charges = 0 := by rw [← hnext]; split <;> rfl
  rw [CodeWorld.registerVerifyFailure, hnext]
  refine h.recount hreserves fun r hr hlive c hc hid => ?_
  have hcovered := h.covered r hr hlive c hc hid
  have hsum := sum_map_set next CodeCall.charges hcall
  have hcounter : w.liveFailures + 1 ≤ CodeWorld.liveFailures
      { w with failures := some w.increment, calls := w.calls.set k next } := by
    unfold CodeWorld.liveFailures CodeWorld.increment
    have hwindow : ¬w.clock + VERIFY_FAILURE_WINDOW_MS < w.clock :=
      not_lt.mpr (le_add_of_nonneg_right (by decide))
    cases w.failures with
    | none => simp [hwindow]
    | some counter =>
        by_cases hout : counter.expiresAt < w.clock
        · simp [hout, hwindow]
        · simp [hout]
  rw [hcharges] at hsum
  have hmissed : CodeCall.missed.charges = 1 := rfl
  show c.evaluated ≤ CodeWorld.liveFailures _ + ((w.calls.set k next).map CodeCall.charges).sum
  unfold CodeWorld.charged at hcovered
  omega

/-- A new code, into an empty table. -/
theorem CodesInv.insert (h : CodesInv w) (hcall : w.calls[k]? = some .inserting)
    (hempty : w.rows = []) : CodesInv (w.insert k code) := by
  have hsum : _ + 1 = _ + 0 :=
    sum_map_set (.created code (w.clock + CODE_EXPIRATION_MINUTES * 60 * 1000))
      CodeCall.reserves hcall
  have hreserved := h.reserved
  have hrecent : (w.insert k code).recentlyIssued = w.recentlyIssued + 1 := by
    have hnow : w.clock - codesWindow ≤ w.clock := sub_le_self _ (by decide)
    simp only [CodeWorld.recentlyIssued, CodeWorld.insert, List.filter_append,
      List.filter_singleton, hnow, decide_true, List.length_append]
    rfl
  have hunder : (w.insert k code).underway + 1 = w.underway := hsum
  have hnot : ∀ c ∈ w.issued, c.id ≠ w.nextId := fun c hc => (h.issuedBelow c hc).ne
  have hrow : ∀ r ∈ (w.insert k code).rows, r =
      { id := w.nextId, code, expiresAt := w.clock + CODE_EXPIRATION_MINUTES * 60 * 1000
        createdAt := w.clock } := by
    intro r hr
    simpa [CodeWorld.insert, hempty] using hr
  constructor
  · show ((w.issued ++ _).map _).Nodup
    rw [List.map_append, List.map_singleton]
    refine List.nodup_append.mpr ⟨h.issuedIds, List.nodup_singleton _, fun a ha b hb => ?_⟩
    obtain ⟨c, hc, rfl⟩ := List.mem_map.mp ha
    rw [List.mem_singleton.mp hb]
    exact hnot c hc
  · intro c hc
    rcases List.mem_append.mp hc with hc | hc
    · exact (h.issuedBelow c hc).trans (Nat.lt_succ_self _)
    · rw [List.mem_singleton.mp hc]
      exact Nat.lt_succ_self _
  · exact fun a ha => (h.acceptedBelow a ha).trans (Nat.lt_succ_self _)
  · simp [CodeWorld.insert, hempty]
  · intro r hr
    rw [hrow r hr]
    exact ⟨_, List.getLast?_concat, rfl, rfl⟩
  · intro r hr hmem
    rw [hrow r hr] at hmem
    obtain ⟨a, ha, hid⟩ := List.mem_map.mp hmem
    exact absurd hid (h.acceptedBelow a ha).ne
  · omega
  · intro r hr _ c hc hid
    rw [hrow r hr] at hid
    rcases List.mem_append.mp hc with hc | hc
    · exact absurd hid (hnot c hc)
    · rw [List.mem_singleton.mp hc]
      exact Nat.zero_le _
  · refine ⟨fun t => ?_, ?_, h.limited.once, ?_⟩
    · have hold := h.limited.hourly t
      show (issuedFrom (w.issued ++ _) t).length ≤ _
      unfold issuedFrom at hold ⊢
      rw [List.filter_append, List.length_append]
      by_cases hwithin : t ≤ w.clock ∧ w.clock ≤ t + codesWindow
      · -- the hour reaches to now: its codes are among those of the last hour
        have hsub : (w.issued.filter fun c => t ≤ c.issuedAt ∧ c.issuedAt ≤ t + codesWindow).length
            ≤ w.recentlyIssued := by
          refine (List.monotone_filter_right _ fun c hc => ?_).length_le
          rw [decide_eq_true_eq] at hc ⊢
          exact sub_le_iff_le_add.mpr (hwithin.2.trans (Int.add_le_add_right hc.1 _))
        have hone : ([({ id := w.nextId, issuedAt := w.clock
                         expiresAt := w.clock + CODE_EXPIRATION_MINUTES * 60 * 1000 } :
            IssuedCode)].filter fun c => t ≤ c.issuedAt ∧ c.issuedAt ≤ t + codesWindow).length ≤ 1 :=
          List.length_filter_le _ _
        omega
      · simp only [List.filter_singleton, hwithin, decide_false]
        simpa using hold
    · intro c hc
      rcases List.mem_append.mp hc with hc | hc
      · exact h.limited.guesses c hc
      · rw [List.mem_singleton.mp hc]
        exact Nat.zero_le _
    · intro a ha
      obtain ⟨c, hc, hvalid⟩ := h.limited.valid a ha
      exact ⟨c, List.mem_append_left _ hc, hvalid⟩

/-- What a wrong guess adds to the codes that it is compared with. -/
def countGuess (w : CodeWorld) (c : IssuedCode) : IssuedCode :=
  if w.rows.any fun r => r.id == c.id && decide (w.live r) then
    { c with evaluated := c.evaluated + 1 }
  else c

theorem countGuess_kept (c : IssuedCode) : (countGuess w c).id = c.id ∧
    (countGuess w c).issuedAt = c.issuedAt ∧ (countGuess w c).expiresAt = c.expiresAt := by
  unfold countGuess
  split
  · exact ⟨rfl, rfl, rfl⟩
  · exact ⟨rfl, rfl, rfl⟩

/-- The codes of a time are the same ones after a guess. -/
theorem length_filter_countGuess (p : Time → Bool) :
    ((w.issued.map (countGuess w)).filter fun c => p c.issuedAt).length =
      (w.issued.filter fun c => p c.issuedAt).length := by
  rw [List.filter_map, List.length_map]
  congr 1
  refine List.filter_congr fun c _ => ?_
  rw [Function.comp_apply, (countGuess_kept c).2.1]

theorem CodesInv.miss (h : CodesInv w) (hcall : w.calls[k]? = some (.guessing code))
    (hmiss : w.matching code = []) (hok : limitsHold w (.next k drawn) = true) :
    CodesInv
      { w with calls := w.calls.set k .missed, issued := w.issued.map (countGuess w) } := by
  have hroom : (∃ r ∈ w.rows, w.live r) → w.charged < MAX_VERIFY_FAILURES := by
    rintro ⟨r, hr, hlive⟩
    simp only [limitsHold, hcall, hmiss, List.isEmpty_nil, Bool.not_true, Bool.false_or,
      Bool.or_eq_true, decide_eq_true_eq, Bool.not_eq_true', List.any_eq_false] at hok
    exact hok.resolve_left fun hnone => hnone r hr hlive
  have hcharges : ((w.calls.set k .missed).map CodeCall.charges).sum + 0 = _ + 1 :=
    sum_map_set _ CodeCall.charges hcall
  have hreserves : ((w.calls.set k .missed).map CodeCall.reserves).sum + 0 = _ + 0 :=
    sum_map_set _ CodeCall.reserves hcall
  have hids : (w.issued.map (countGuess w)).map IssuedCode.id = w.issued.map IssuedCode.id := by
    rw [List.map_map]
    exact List.map_congr_left fun c _ => (countGuess_kept c).1
  constructor
  · show ((w.issued.map _).map _).Nodup
    rw [hids]
    exact h.issuedIds
  · intro c' hc'
    obtain ⟨c, hc, rfl⟩ := List.mem_map.mp hc'
    rw [(countGuess_kept c).1]
    exact h.issuedBelow c hc
  · exact h.acceptedBelow
  · exact h.one
  · intro r hr
    obtain ⟨c, hlast, hid, hexpires⟩ := h.latest r hr
    refine ⟨countGuess w c, ?_, (countGuess_kept c).1.trans hid,
      (countGuess_kept c).2.2.trans hexpires⟩
    show (w.issued.map _).getLast? = _
    rw [List.getLast?_map, hlast]
    rfl
  · exact h.unused
  · have hreserved := h.reserved
    unfold CodeWorld.recentlyIssued CodeWorld.underway at hreserved ⊢
    have hsame := length_filter_countGuess (w := w) fun t => decide (w.clock - codesWindow ≤ t)
    show ((w.issued.map (countGuess w)).filter fun c =>
      decide (w.clock - codesWindow ≤ c.issuedAt)).length + ((w.calls.set k .missed).map CodeCall.reserves).sum ≤ _
    omega
  · intro r hr hlive c' hc' hid
    obtain ⟨c, hc, rfl⟩ := List.mem_map.mp hc'
    rw [(countGuess_kept c).1] at hid
    have hcovered := h.covered r hr hlive c hc hid
    have hle : (countGuess w c).evaluated ≤ c.evaluated + 1 := by
      unfold countGuess
      split
      · exact le_rfl
      · exact Nat.le_succ _
    unfold CodeWorld.charged at hcovered
    show _ ≤ w.liveFailures + ((w.calls.set k .missed).map CodeCall.charges).sum
    omega
  · refine ⟨fun t => ?_, fun c' hc' => ?_, h.limited.once, fun a ha => ?_⟩
    · refine le_trans (le_of_eq ?_) (h.limited.hourly t)
      exact length_filter_countGuess fun s => decide (t ≤ s ∧ s ≤ t + codesWindow)
    · obtain ⟨c, hc, rfl⟩ := List.mem_map.mp hc'
      have hold := h.limited.guesses c hc
      unfold countGuess
      split
      · rename_i hany
        obtain ⟨r, hr, hrow⟩ := List.any_eq_true.mp hany
        rw [Bool.and_eq_true, beq_iff_eq, decide_eq_true_eq] at hrow
        have hcovered := h.covered r hr hrow.2 c hc hrow.1.symm
        have := hroom ⟨r, hr, hrow.2⟩
        show c.evaluated + 1 ≤ _
        omega
      · exact hold
    · obtain ⟨c, hc, hid, hvalid⟩ := h.limited.valid a ha
      refine ⟨countGuess w c, List.mem_map_of_mem hc, (countGuess_kept c).1.trans hid, ?_⟩
      rw [(countGuess_kept c).1, (countGuess_kept c).2.2]
      exact hvalid

/-- The row that a guess matches is the latest code, and the table is empty after it. -/
theorem CodesInv.hit (h : CodesInv w) (hcall : w.calls[k]? = some (.guessing code))
    (hhit : w.matching code ≠ []) :
    CodesInv
      { w with
          rows := w.rows.filter fun r => !(r.code == code && decide (w.live r))
          calls := w.calls.set k .accepted
          accepted := w.accepted ++ (w.matching code).map fun r =>
            { id := r.id, time := w.clock, latest := w.issued.getLast?.map (·.id) } } := by
  obtain ⟨r, hmatch⟩ := List.exists_mem_of_ne_nil _ hhit
  obtain ⟨hr, hgood⟩ := List.mem_filter.mp hmatch
  have hrows : w.rows = [r] := by
    obtain ⟨t, ht⟩ := List.length_eq_one_iff.mp (le_antisymm h.one (List.length_pos_of_mem hr))
    rw [ht, List.mem_singleton] at hr
    rw [ht, hr]
  have hmatching : w.matching code = [r] := by
    rw [CodeWorld.matching, hrows, List.filter_singleton, hgood]
    rfl
  have hleft : w.rows.filter (fun r => !(r.code == code && decide (w.live r))) = [] := by
    rw [hrows, List.filter_singleton, hgood]
    rfl
  obtain ⟨c, hlast, hid, hexpires⟩ := h.latest r hr
  have hmem : c ∈ w.issued := List.mem_of_getLast? hlast
  have hlive : w.clock < r.expiresAt := of_decide_eq_true (Bool.and_eq_true_iff.mp hgood).2
  have hreserves : ((w.calls.set k .accepted).map CodeCall.reserves).sum + 0 = _ + 0 :=
    sum_map_set _ CodeCall.reserves hcall
  rw [hmatching, hleft, List.map_singleton]
  constructor
  · exact h.issuedIds
  · exact h.issuedBelow
  · intro a ha
    rcases List.mem_append.mp ha with ha | ha
    · exact h.acceptedBelow a ha
    · rw [List.mem_singleton.mp ha]
      exact hid ▸ h.issuedBelow c hmem
  · exact Nat.zero_le _
  · exact nofun
  · exact nofun
  · have hreserved := h.reserved
    unfold CodeWorld.underway at hreserved
    show w.recentlyIssued + ((w.calls.set k .accepted).map CodeCall.reserves).sum ≤ _
    omega
  · exact nofun
  · refine ⟨h.limited.hourly, h.limited.guesses, ?_, fun a ha => ?_⟩
    · show ((w.accepted ++ _).map _).Nodup
      rw [List.map_append, List.map_singleton]
      refine List.nodup_append.mpr ⟨h.limited.once, List.nodup_singleton _, fun i hi j hj => ?_⟩
      rw [List.mem_singleton.mp hj]
      rintro rfl
      exact h.unused r hr hi
    · rcases List.mem_append.mp ha with ha | ha
      · exact h.limited.valid a ha
      · rw [List.mem_singleton.mp ha]
        refine ⟨c, hmem, hid, hexpires ▸ hlive, ?_⟩
        rw [hlast]
        rfl

theorem CodesInv.tick (h : CodesInv w) {now : Time} (hle : w.clock ≤ now)
    (hok : limitsHold w (.tick now) = true) : CodesInv { w with clock := now } := by
  have hlive : ∀ r, CodeWorld.live { w with clock := now } r → w.live r :=
    fun r hr => lt_of_le_of_lt hle hr
  simp only [limitsHold, Bool.or_eq_true, decide_eq_true_eq] at hok
  constructor
  · exact h.issuedIds
  · exact h.issuedBelow
  · exact h.acceptedBelow
  · exact h.one
  · exact h.latest
  · exact h.unused
  · refine le_trans (Nat.add_le_add_right ?_ _) h.reserved
    refine (List.monotone_filter_right _ fun c hc => ?_).length_le
    rw [decide_eq_true_eq] at hc ⊢
    exact (sub_le_sub_right hle _).trans hc
  · intro r hr hgood c hc hid
    rcases hok with hok | hok
    · exact (h.covered r hr (hlive r hgood) c hc hid).trans (Nat.add_le_add_right hok _)
    · rw [noneGuessed_spec hok hr hgood c hc hid]
      exact Nat.zero_le _
  · exact ⟨h.limited.hourly, h.limited.guesses, h.limited.once, h.limited.valid⟩

/-- A reset of the counter, or a call that leaves out what it had to do, where no code has been
guessed at. -/
theorem CodesInv.reset (h : CodesInv w) {failures : Option FailureCounter}
    (hreserves : call'.reserves = 0) (hnone : w.noneGuessed = true) :
    CodesInv { w with failures := failures, calls := w.calls.set k call' } := by
  refine h.recount hreserves fun r hr hlive c hc hid => ?_
  rw [noneGuessed_spec hnone hr hlive c hc hid]
  exact Nat.zero_le _

/-- A call that goes on with no more to put on the counter than before, the counter left alone. -/
theorem CodesInv.goto (h : CodesInv w) (hreserves : call'.reserves = 0)
    (hcharges : ∀ call, w.calls[k]? = some call → call.charges = 0) :
    CodesInv (w.goto k call') := by
  refine h.recount hreserves fun r hr hlive c hc hid => ?_
  have hcovered := h.covered r hr hlive c hc hid
  show _ ≤ w.liveFailures + ((w.calls.set k call').map CodeCall.charges).sum
  unfold CodeWorld.charged at hcovered
  cases hcall : w.calls[k]? with
  | none =>
      rw [List.set_eq_of_length_le (List.getElem?_eq_none_iff.mp hcall)]
      exact hcovered
  | some call =>
      have := sum_map_set call' CodeCall.charges hcall
      have := hcharges call hcall
      omega

theorem CodesInv.fail (h : CodesInv w) (hok : limitsHold w (.fail k) = true) :
    CodesInv (w.goto k .failed) := by
  by_cases hcharges : ∀ call, w.calls[k]? = some call → call.charges = 0
  · exact h.goto rfl hcharges
  · -- the guess that has missed and the reset counter are the calls with a charge
    refine h.reset rfl ?_
    simp only [limitsHold] at hok
    split at hok
    · exact hok
    · exact hok
    · rename_i hmissed hvoiding
      refine absurd (fun call hcall => ?_) hcharges
      cases call <;> first | rfl | exact absurd hcall hmissed | exact absurd hcall hvoiding

theorem CodesInv.next (h : CodesInv w) (hok : limitsHold w (.next k drawn) = true)
    (hs : w.next k drawn = some w') : CodesInv w' := by
  unfold CodeWorld.next at hs
  split at hs
  · rename_i hcall
    obtain rfl := Option.some.inj hs
    exact h.count hcall hok
  · rename_i hcall
    obtain rfl := Option.some.inj hs
    exact h.clear fun call hc => (Option.some.inj (hcall.symm.trans hc)) ▸ le_rfl
  · rename_i hcall
    obtain ⟨code, -, rfl⟩ := Option.map_eq_some_iff.mp hs
    simp only [limitsHold, hcall] at hok
    exact h.insert hcall (List.isEmpty_iff.mp hok)
  · rename_i code hcall
    obtain rfl := Option.some.inj hs
    unfold CodeWorld.guess
    split
    · rename_i hmiss
      exact h.miss hcall hmiss hok
    · rename_i hhit
      exact h.hit hcall hhit
  · rename_i hcall
    obtain rfl := Option.some.inj hs
    simp only [limitsHold, hcall] at hok
    exact h.reset rfl hok
  · rename_i hcall
    obtain rfl := Option.some.inj hs
    exact h.registerVerifyFailure hcall
  · rename_i hcall
    obtain rfl := Option.some.inj hs
    -- the counter is gone, and the call stands for all that was on it
    refine h.recount rfl fun r hr hlive c hc hid => ?_
    have hsum : ((w.calls.set k .voiding).map CodeCall.charges).sum + 0 =
        (w.calls.map CodeCall.charges).sum + MAX_VERIFY_FAILURES :=
      sum_map_set _ CodeCall.charges hcall
    have := h.limited.guesses c hc
    show _ ≤ CodeWorld.liveFailures _ + ((w.calls.set k .voiding).map CodeCall.charges).sum
    omega
  · obtain rfl := Option.some.inj hs
    exact h.clear fun call _ => Nat.zero_le _
  · cases hs

theorem CodesInv.step (h : CodesInv w) (hok : limitsHold w event = true)
    (hs : codeStep w event = some w') : CodesInv w' := by
  cases event with
  | createVerificationCode =>
      obtain rfl := Option.some.inj hs
      exact h.start rfl rfl
  | verifyCode code =>
      obtain rfl := Option.some.inj hs
      refine h.start ?_ ?_
      · split <;> rfl
      · split <;> rfl
  | next k drawn => exact h.next hok hs
  | fail k =>
      obtain rfl := Option.some.inj hs
      exact h.fail hok
  | loseFailures =>
      obtain rfl := Option.some.inj hs
      refine h.move (.refl _) rfl rfl rfl rfl h.reserved fun r hr hlive c hc hid => ?_
      rw [noneGuessed_spec hok hr hlive c hc hid]
      exact Nat.zero_le _
  | cleanupExpiredCodes =>
      obtain rfl := Option.some.inj hs
      refine h.move List.filter_sublist rfl rfl rfl rfl h.reserved fun r hr => ?_
      exact h.covered r (List.mem_of_mem_filter hr)
  | tick now =>
      simp only [codeStep, Option.ite_none_right_eq_some, Option.some.injEq] at hs
      obtain ⟨hle, rfl⟩ := hs
      exact h.tick hle hok

theorem codesInv_start (clock : Time) : CodesInv { clock } where
  issuedIds := List.nodup_nil
  issuedBelow := nofun
  acceptedBelow := nofun
  one := Nat.zero_le _
  latest := nofun
  unused := nofun
  reserved := Nat.zero_le _
  covered := nofun
  limited := ⟨fun _ => Nat.zero_le _, nofun, List.nodup_nil, nofun⟩

/-- In every run of steps within the limits, the limits hold of the codes. -/
theorem codes_limited {clock : Time}
    (h : Machine.Reach codeStep (fun w event => limitsHold w event = true) { clock } w) :
    CodesLimited w := by
  have hinv : CodesInv w := h.invariant (codesInv_start clock) fun ht hok hs => ht.step hok hs
  exact hinv.limited

end Invariant

/-- A code, four wrong guesses and the right one. -/
def guessedCodeRun : List CodeEvent :=
  [.createVerificationCode, .next 0 0, .next 0 0, .next 0 123456,
   .verifyCode "111111", .next 1 0, .next 1 0, .verifyCode "222222", .next 2 0, .next 2 0,
   .tick 60000,
   .verifyCode "333333", .next 3 0, .next 3 0, .verifyCode "444444", .next 4 0, .next 4 0,
   .verifyCode "123456", .next 5 0, .next 5 0]

def guessedCodeWorld : CodeWorld where
  clock := 60000
  nextId := 2
  calls := [.created "123456" 600000, .answered false, .answered false, .answered false,
    .answered false, .answered true]
  issued := [⟨1, 0, 600000, 4⟩]
  accepted := [⟨1, 60000, some 1⟩]

theorem codes_limited_guessed :
    guessedCodeWorld.accepted = [⟨1, 60000, some 1⟩] ∧ CodesLimited guessedCodeWorld := by
  have hrun : Machine.exec (Machine.guarded codeStep limitsHold) { clock := 0 } guessedCodeRun =
      some guessedCodeWorld := by decide +kernel
  exact ⟨rfl, codes_limited (Machine.reach_of_exec_guarded hrun)⟩

/-- Six calls of `createVerificationCode`, one after the other. -/
def sixCodesRun : List CodeEvent :=
  (List.range 6).flatMap fun k =>
    [.createVerificationCode, .next k 0, .next k 0, .next k (123456 + k)]

theorem six_codes_within_an_hour :
    ∃ w, Machine.Reach codeStep Machine.free { clock := 0 } w ∧ ¬CodesLimited w := by
  cases hrun : Machine.exec codeStep { clock := 0 } sixCodesRun with
  | none => exact absurd hrun (by decide +kernel)
  | some w =>
      refine ⟨w, Machine.reach_of_exec hrun, fun h => ?_⟩
      have hsix : (Machine.exec codeStep { clock := 0 } sixCodesRun).map
          (fun w => (issuedFrom w.issued 0).length) = some 6 := by decide +kernel
      rw [hrun, Option.map_some, Option.some.injEq] at hsix
      exact absurd (h.hourly 0) (by rw [hsix]; decide)

end Incudal
