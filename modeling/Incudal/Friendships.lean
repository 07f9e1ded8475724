/-
# `Friendships` — who has asked and who has agreed

A row joins a sender and a receiver; the status says how far they are.  Every
operation is a read and then a write by the row's id, nothing holds the row in
between, and the index only keeps two rows of the same direction apart.

Four writes can do what the two users have not agreed to: a request sent again
on a rejected row by its receiver, who may then accept it himself; a row created
while the pair has one that counts; an acceptance of a row that is no longer
pending; and the removal of an old row while the pair's other row counts.  In a
run without these, friends are friends by a request and its acceptance
(`friendships_consented`); the run at the end has one of them.
-/
import Incudal.Basic
import Incudal.Lib.Keyed
import Incudal.Lib.Machine
import Mathlib

namespace Incudal

/-! ## Rows -/

inductive FriendshipStatus
  | pending | accepted | rejected | removed
deriving DecidableEq, Repr

/-- A row of `friendships`, from the sender to the receiver. -/
structure Friendship where
  id : ℕ
  userId : ℕ
  friendId : ℕ
  status : FriendshipStatus
  remark : Option String
  createdAt : Time
  acceptedAt : Option Time := none
  rejectedAt : Option Time := none
deriving DecidableEq, Repr

/-- The row is of these two users, in either direction. -/
def Friendship.Joins (r : Friendship) (a b : ℕ) : Prop :=
  (r.userId = a ∧ r.friendId = b) ∨ (r.userId = b ∧ r.friendId = a)

instance (r : Friendship) (a b : ℕ) : Decidable (r.Joins a b) :=
  inferInstanceAs (Decidable (_ ∨ _))

/-- The row counts: it is a request or a friendship. -/
def Friendship.Counts (r : Friendship) : Prop :=
  r.status = .pending ∨ r.status = .accepted

instance (r : Friendship) : Decidable r.Counts := inferInstanceAs (Decidable (_ ∨ _))

/-! ## What an operation makes of the row that it reads -/

/-- The checks of the three operations on a request; they differ in whose it has to be. -/
def checkRequest (party : Friendship → ℕ) (request : Option Friendship) (userId : ℕ) :
    Except String Unit :=
  match request with
  | none => .error "REQUEST_NOT_FOUND"
  | some request =>
      if party request ≠ userId then .error "FORBIDDEN"
      else if request.status ≠ .pending then .error "REQUEST_NOT_PENDING"
      else .ok ()

def acceptFriendRequest : Option Friendship → ℕ → Except String Unit := checkRequest (·.friendId)

def rejectFriendRequest : Option Friendship → ℕ → Except String Unit := checkRequest (·.friendId)

def cancelFriendRequest : Option Friendship → ℕ → Except String Unit := checkRequest (·.userId)

/-- The status is not looked at. -/
def removeFriend (friendship : Option Friendship) (userId : ℕ) : Except String Unit :=
  match friendship with
  | none => .error "FRIENDSHIP_NOT_FOUND"
  | some friendship =>
      if friendship.userId ≠ userId ∧ friendship.friendId ≠ userId then .error "FORBIDDEN"
      else .ok ()

/-- What a request goes on to do. -/
inductive SendDecision
  | fail (error : String)
  | accept (id : ℕ)
  | resend (id : ℕ)
  | create
deriving DecidableEq, Repr

def sendFriendRequest (existing : Option Friendship) (userId friendId : ℕ) : SendDecision :=
  match existing with
  | none => .create
  | some existing =>
      match existing.status with
      | .accepted => .fail "ALREADY_FRIENDS"
      | .pending =>
          if existing.userId = friendId ∧ existing.friendId = userId then .accept existing.id
          else .fail "REQUEST_PENDING"
      | .rejected => .resend existing.id
      | .removed => .create

/-- `areFriends`. -/
def areFriends (rows : List Friendship) (userId1 userId2 : ℕ) : Bool :=
  rows.any fun r => r.status == .accepted && decide (r.Joins userId1 userId2)

/-! ## Calls and the table -/

/-- The operations on a row of a given id. -/
inductive FriendOperation
  | accept | reject | cancel | remove
deriving DecidableEq, Repr

def FriendOperation.check : FriendOperation → Option Friendship → ℕ → Except String Unit
  | .accept => acceptFriendRequest
  | .reject => rejectFriendRequest
  | .cancel => cancelFriendRequest
  | .remove => removeFriend

/-- Where a call is: before its read, or before its write. -/
inductive FriendCall
  | sending (userId friendId : ℕ) (remark : Option String)
  | creating (userId friendId : ℕ) (remark : Option String)
  | resending (id userId friendId : ℕ) (remark : Option String)
  | reading (operation : FriendOperation) (id userId : ℕ)
  | writing (operation : FriendOperation) (id userId : ℕ)
  | returned (id : ℕ)
  | failed (error : String)
deriving DecidableEq, Repr

inductive FriendAct
  | requested | accepted | rejected | cancelled | removed
deriving DecidableEq, Repr

/-- A write that has happened: which row, by whom, and who is the other. -/
structure FriendDeed where
  act : FriendAct
  id : ℕ
  actor : ℕ
  other : ℕ
deriving DecidableEq, Repr

structure FriendWorld where
  clock : Time := 0
  rows : List Friendship := []
  nextId : ℕ := 1
  calls : List FriendCall := []
  /-- what has been written, the latest first -/
  history : List FriendDeed := []
deriving DecidableEq, Repr

inductive FriendEvent
  | sendFriendRequest (userId friendId : ℕ) (remark : Option String)
  | operate (operation : FriendOperation) (id userId : ℕ)
  /-- the read of a request, with the row that the database picks among those of the pair -/
  | findFirst (k i : ℕ)
  | findUnique (k : ℕ)
  | write (k : ℕ)
  | tick (now : Time)
deriving DecidableEq, Repr

namespace FriendWorld

variable (w : FriendWorld)

def goto (k : ℕ) (call : FriendCall) : FriendWorld := { w with calls := w.calls.set k call }

/-- The update of one row. -/
def update (k id : ℕ) (f : Friendship → Friendship) (deed : FriendDeed) : FriendWorld :=
  { w with
      rows := Keyed.modify Friendship.id id f w.rows
      calls := w.calls.set k (.returned id)
      history := deed :: w.history }

/-- `remark || null`. -/
def remarkOrNull (remark : Option String) : Option String := remark.filter (· != "")

/-- What a request does after its read. -/
def proceed (k userId friendId : ℕ) (remark : Option String) : SendDecision → FriendWorld
  | .fail error => w.goto k (.failed error)
  | .accept id => w.goto k (.reading .accept id userId)
  | .resend id => w.goto k (.resending id userId friendId remark)
  | .create => w.goto k (.creating userId friendId remark)

/-- `create`; a row of the same direction makes it fail. -/
def create (k userId friendId : ℕ) (remark : Option String) : FriendWorld :=
  if w.rows.any fun r => r.userId == userId && r.friendId == friendId then
    w.goto k (.failed "P2002")
  else
    { w with
        rows := w.rows ++
          [{ id := w.nextId, userId, friendId, status := .pending
             remark := remarkOrNull remark, createdAt := w.clock }]
        nextId := w.nextId + 1
        calls := w.calls.set k (.returned w.nextId)
        history := ⟨.requested, w.nextId, userId, friendId⟩ :: w.history }

/-- The update of a rejected row by a new request; the direction stays. -/
def resend (k id userId friendId : ℕ) (remark : Option String) : FriendWorld :=
  match Keyed.lookup Friendship.id id w.rows with
  | none => w.goto k (.failed "P2025")
  | some _ =>
      w.update k id
        (fun r => { r with status := .pending, remark := remarkOrNull remark, rejectedAt := none })
        ⟨.requested, id, userId, friendId⟩

/-- The other user of a row. -/
def otherOf (r : Friendship) (userId : ℕ) : ℕ :=
  if r.userId = userId then r.friendId else r.userId

/-- The write of an operation, whatever has become of the row since its read. -/
def finish (k : ℕ) (operation : FriendOperation) (id userId : ℕ) : FriendWorld :=
  match Keyed.lookup Friendship.id id w.rows with
  | none => w.goto k (.failed "P2025")
  | some r =>
      let other := otherOf r userId
      match operation with
      | .accept =>
          w.update k id (fun r => { r with status := .accepted, acceptedAt := some w.clock })
            ⟨.accepted, id, userId, other⟩
      | .reject =>
          w.update k id (fun r => { r with status := .rejected, rejectedAt := some w.clock })
            ⟨.rejected, id, userId, other⟩
      | .cancel =>
          { w with
              rows := Keyed.erase Friendship.id id w.rows
              calls := w.calls.set k (.returned id)
              history := ⟨.cancelled, id, userId, other⟩ :: w.history }
      | .remove =>
          w.update k id (fun r => { r with status := .removed }) ⟨.removed, id, userId, other⟩

end FriendWorld

/-- One database call of one operation.  A user does not find himself to send a request to. -/
def friendStep (w : FriendWorld) : FriendEvent → Option FriendWorld
  | .sendFriendRequest userId friendId remark =>
      if userId = friendId then none
      else some { w with calls := w.calls ++ [.sending userId friendId remark] }
  | .operate operation id userId =>
      some { w with calls := w.calls ++ [.reading operation id userId] }
  | .findFirst k i =>
      match w.calls[k]? with
      | some (.sending userId friendId remark) =>
          let found := w.rows.filter fun r => decide (r.Joins userId friendId)
          if found = [] then
            some (w.proceed k userId friendId remark (sendFriendRequest none userId friendId))
          else
            found[i]?.map fun existing =>
              w.proceed k userId friendId remark
                (sendFriendRequest (some existing) userId friendId)
      | _ => none
  | .findUnique k =>
      match w.calls[k]? with
      | some (.reading operation id userId) =>
          match operation.check (Keyed.lookup Friendship.id id w.rows) userId with
          | .error error => some (w.goto k (.failed error))
          | .ok () => some (w.goto k (.writing operation id userId))
      | _ => none
  | .write k =>
      match w.calls[k]? with
      | some (.creating userId friendId remark) => some (w.create k userId friendId remark)
      | some (.resending id userId friendId remark) =>
          some (w.resend k id userId friendId remark)
      | some (.writing operation id userId) => some (w.finish k operation id userId)
      | _ => none
  | .tick now => if w.clock ≤ now then some { w with clock := now } else none

/-! ## What is promised -/

/-- The deed ends what there was of the request on row `id` of these two users: it rejects or
cancels the request, or it is a removal between them. -/
def FriendDeed.Ends (d : FriendDeed) (id a b : ℕ) : Prop :=
  ((d.act = .rejected ∨ d.act = .cancelled) ∧ d.id = id) ∨
    (d.act = .removed ∧ ((d.actor = a ∧ d.other = b) ∨ (d.actor = b ∧ d.other = a)))

instance (d : FriendDeed) (id a b : ℕ) : Decidable (d.Ends id a b) :=
  inferInstanceAs (Decidable (_ ∨ _))

/-- A request of `a` to `b` on row `id` to which nothing has put an end; what came after it. -/
def Requested (history : List FriendDeed) (id a b : ℕ) (later : List FriendDeed) : Prop :=
  (∃ earlier, history = later ++ ⟨.requested, id, a, b⟩ :: earlier) ∧
    ∀ d ∈ later, ¬d.Ends id a b

/-- Friends are friends by a request of one and the acceptance of the other, with no rejection,
cancellation or removal since; nobody has accepted on a row on which he has sent a request; and
a pair has one row at most that counts. -/
structure FriendshipsConsented (w : FriendWorld) : Prop where
  consent : ∀ u v, areFriends w.rows u v = true → ∃ id a b later,
    ((a = u ∧ b = v) ∨ (a = v ∧ b = u)) ∧ Requested w.history id a b later ∧
      ⟨.accepted, id, b, a⟩ ∈ later
  notOwn : ∀ d ∈ w.history, ∀ e ∈ w.history, d.act = .accepted → e.act = .requested →
    d.id = e.id → d.actor ≠ e.actor
  single : ∀ r ∈ w.rows, ∀ s ∈ w.rows, r.Counts → s.Counts → s.Joins r.userId r.friendId → r = s

/-- Another row of the pair counts. -/
def otherCounts (rows : List Friendship) (id a b : ℕ) : Bool :=
  rows.any fun r => decide (r.id ≠ id ∧ r.Joins a b ∧ r.Counts)

/-- The writes that keep to what has been agreed.  A row is created, or fails to be, where none
of the pair counts; a request is sent again by the sender of its row, and while no other row
counts; what is accepted is pending, or accepted already; and a removal is not of an old row
while another one counts. -/
def keepsConsent (w : FriendWorld) : FriendEvent → Bool
  | .write k =>
      match w.calls[k]? with
      | some (.creating userId friendId _) =>
          (w.rows.any fun r => r.userId == userId && r.friendId == friendId) ||
            !(w.rows.any fun r => decide (r.Joins userId friendId ∧ r.Counts))
      | some (.resending id userId friendId _) =>
          (Keyed.lookup Friendship.id id w.rows).all fun r =>
            r.userId == userId && !otherCounts w.rows id userId friendId
      | some (.writing .accept id _) =>
          (Keyed.lookup Friendship.id id w.rows).all fun r => decide r.Counts
      | some (.writing .remove id _) =>
          (Keyed.lookup Friendship.id id w.rows).all fun r =>
            !otherCounts w.rows id r.userId r.friendId
      | _ => true
  | _ => true

/-! ## The invariant -/

/-- What a call knows of the row that it is to write. -/
def CallKnows (w : FriendWorld) : FriendCall → Prop
  | .sending userId friendId _ => userId ≠ friendId
  | .creating userId friendId _ => userId ≠ friendId
  | .resending id userId friendId _ =>
      id < w.nextId ∧ ∀ r ∈ w.rows, r.id = id → r.Joins userId friendId
  | .writing operation id userId =>
      id < w.nextId ∧ ∀ r ∈ w.rows, r.id = id →
        match operation with
        | .accept | .reject => r.friendId = userId
        | .cancel => r.userId = userId
        | .remove => r.userId = userId ∨ r.friendId = userId
  | _ => True

/-- The request of the row's sender stands, and has been accepted if the row says so. -/
def Standing (history : List FriendDeed) (r : Friendship) : Prop :=
  ∃ later, Requested history r.id r.userId r.friendId later ∧
    (r.status = .accepted → ⟨.accepted, r.id, r.friendId, r.userId⟩ ∈ later)

structure FriendInv (w : FriendWorld) : Prop where
  ids : (w.rows.map Friendship.id).Nodup
  below : ∀ r ∈ w.rows, r.id < w.nextId
  distinct : ∀ r ∈ w.rows, r.userId ≠ r.friendId
  calls : ∀ c ∈ w.calls, CallKnows w c
  past : ∀ d ∈ w.history, d.id < w.nextId
  deeds : ∀ d ∈ w.history, ∀ r ∈ w.rows, r.id = d.id →
    (d.act = .requested → d.actor = r.userId) ∧ (d.act = .accepted → d.actor = r.friendId)
  standing : ∀ r ∈ w.rows, r.Counts → Standing w.history r
  notOwn : ∀ d ∈ w.history, ∀ e ∈ w.history, d.act = .accepted → e.act = .requested →
    d.id = e.id → d.actor ≠ e.actor
  single : ∀ r ∈ w.rows, ∀ s ∈ w.rows, r.Counts → s.Counts → s.Joins r.userId r.friendId → r = s

section Invariant

variable {w w' : FriendWorld} {r s : Friendship} {a b u v k id : ℕ} {call : FriendCall}
  {deed : FriendDeed} {history : List FriendDeed} {f : Friendship → Friendship}
  {event : FriendEvent}

theorem Friendship.joins_self (r : Friendship) : r.Joins r.userId r.friendId := .inl ⟨rfl, rfl⟩

theorem Friendship.Joins.symm (h : r.Joins a b) : r.Joins b a := Or.symm h

/-- Two rows that join the same users join each other's. -/
theorem Friendship.Joins.row (hr : r.Joins a b) (hs : s.Joins a b) : s.Joins r.userId r.friendId := by
  rcases hr with ⟨rfl, rfl⟩ | ⟨rfl, rfl⟩
  · exact hs
  · exact hs.symm

theorem FriendInv.consented (h : FriendInv w) : FriendshipsConsented w where
  consent u v hfriends := by
    obtain ⟨r, hr, hrow⟩ := List.any_eq_true.mp hfriends
    rw [Bool.and_eq_true, beq_iff_eq, decide_eq_true_eq] at hrow
    obtain ⟨later, hrequested, haccepted⟩ := h.standing r hr (.inr hrow.1)
    exact ⟨r.id, r.userId, r.friendId, later, hrow.2.imp id fun h => ⟨h.1, h.2⟩, hrequested,
      haccepted hrow.1⟩
  notOwn := h.notOwn
  single := h.single

/-- A deed that does not end the request leaves it standing. -/
theorem Standing.cons (h : Standing history r) (hd : ¬deed.Ends r.id r.userId r.friendId) :
    Standing (deed :: history) r := by
  obtain ⟨later, ⟨⟨earlier, rfl⟩, hends⟩, haccepted⟩ := h
  refine ⟨deed :: later, ⟨⟨earlier, rfl⟩, ?_⟩, fun hs => List.mem_cons_of_mem _ (haccepted hs)⟩
  exact List.forall_mem_cons.mpr ⟨hd, hends⟩

/-- Calls know of their rows what they knew, as long as the rows keep their users. -/
theorem CallKnows.mono (h : CallKnows w call) (hnext : w.nextId ≤ w'.nextId)
    (hrows : ∀ r' ∈ w'.rows, r'.id < w.nextId → ∃ r ∈ w.rows, r.id = r'.id ∧
      r.userId = r'.userId ∧ r.friendId = r'.friendId) : CallKnows w' call := by
  cases call with
  | sending => exact h
  | creating => exact h
  | resending id userId friendId remark =>
      refine ⟨h.1.trans_le hnext, fun r' hr' he => ?_⟩
      obtain ⟨r, hr, hid, hu, hf⟩ := hrows r' hr' (he ▸ h.1)
      have := h.2 r hr (hid.trans he)
      rwa [Friendship.Joins, hu, hf] at this
  | writing operation id userId =>
      refine ⟨h.1.trans_le hnext, fun r' hr' he => ?_⟩
      obtain ⟨r, hr, hid, hu, hf⟩ := hrows r' hr' (he ▸ h.1)
      have := h.2 r hr (hid.trans he)
      rwa [hu, hf] at this
  | reading => trivial
  | returned => trivial
  | failed => trivial

theorem forall_mem_set {P : FriendCall → Prop} {calls : List FriendCall}
    (h : ∀ c ∈ calls, P c) (hc : P call) : ∀ c ∈ calls.set k call, P c := by
  intro c hmem
  rcases List.mem_or_eq_of_mem_set hmem with hmem | rfl
  · exact h c hmem
  · exact hc

/-- A read changes nothing but the call. -/
theorem FriendInv.goto (h : FriendInv w) (hc : CallKnows w call) : FriendInv (w.goto k call) :=
  { h with calls := forall_mem_set h.calls hc }

theorem FriendInv.start (h : FriendInv w) (hc : CallKnows w call) :
    FriendInv { w with calls := w.calls ++ [call] } :=
  { h with
    calls := fun c hmem => by
      rcases List.mem_append.mp hmem with hmem | hmem
      · exact h.calls c hmem
      · rw [List.mem_singleton.mp hmem]
        exact hc }

/-- A new deed and those before it. -/
theorem notOwn_cons (h : ∀ d ∈ history, ∀ e ∈ history, d.act = .accepted → e.act = .requested →
      d.id = e.id → d.actor ≠ e.actor)
    (hreq : deed.act = .requested → ∀ d ∈ history, d.act = .accepted → d.id = deed.id →
      d.actor ≠ deed.actor)
    (hacc : deed.act = .accepted → ∀ e ∈ history, e.act = .requested → deed.id = e.id →
      deed.actor ≠ e.actor) :
    ∀ d ∈ deed :: history, ∀ e ∈ deed :: history, d.act = .accepted → e.act = .requested →
      d.id = e.id → d.actor ≠ e.actor := by
  intro d hd e he ha hr hid
  rcases List.mem_cons.mp hd with rfl | hdold <;> rcases List.mem_cons.mp he with rfl | heold
  · rw [ha] at hr
    cases hr
  · exact hacc ha e heold hr hid
  · exact hreq hr d hdold ha hid
  · exact h d hdold e heold ha hr hid

theorem FriendInv.eq_of_id (h : FriendInv w) (hr : r ∈ w.rows) (hs : s ∈ w.rows)
    (he : r.id = s.id) : r = s :=
  List.inj_on_of_nodup_map h.ids hr hs he

/-- The update of a row that keeps its users, with a deed by one of them. -/
structure UpdateOf (w : FriendWorld) (r : Friendship) (f : Friendship → Friendship)
    (deed : FriendDeed) : Prop where
  id : ∀ r, (f r).id = r.id
  userId : ∀ r, (f r).userId = r.userId
  friendId : ∀ r, (f r).friendId = r.friendId
  row : deed.id = r.id
  requested : deed.act = .requested → deed.actor = r.userId
  accepted : deed.act = .accepted → deed.actor = r.friendId
  /-- the other rows that count are not ended -/
  others : ∀ s ∈ w.rows, s.id ≠ r.id → s.Counts → ¬deed.Ends s.id s.userId s.friendId
  /-- if the row counts now, its request stands and it is the only one -/
  standing : (f r).Counts → Standing (deed :: w.history) (f r)
  single : (f r).Counts → ∀ s ∈ w.rows, s.id ≠ r.id → s.Counts → ¬s.Joins r.userId r.friendId

theorem FriendInv.update (h : FriendInv w) (hr : r ∈ w.rows) (hf : UpdateOf w r f deed) :
    FriendInv (w.update k r.id f deed) := by
  have hrows : ∀ r' ∈ Keyed.modify Friendship.id r.id f w.rows,
      r' = f r ∨ (r' ∈ w.rows ∧ r'.id ≠ r.id) := by
    intro r' hr'
    obtain ⟨s, hs, rfl⟩ := Keyed.mem_modify.mp hr'
    split
    · rename_i he
      exact .inl (congrArg f (h.eq_of_id hs hr he))
    · rename_i hne
      exact .inr ⟨hs, hne⟩
  have hfrom : ∀ r' ∈ Keyed.modify Friendship.id r.id f w.rows, ∃ s ∈ w.rows, s.id = r'.id ∧
      s.userId = r'.userId ∧ s.friendId = r'.friendId := by
    intro r' hr'
    rcases hrows r' hr' with rfl | ⟨hs, -⟩
    · exact ⟨r, hr, (hf.id r).symm, (hf.userId r).symm, (hf.friendId r).symm⟩
    · exact ⟨r', hs, rfl, rfl, rfl⟩
  constructor
  · show ((Keyed.modify _ _ _ w.rows).map _).Nodup
    rw [Keyed.map_key_modify hf.id]
    exact h.ids
  · intro r' hr'
    obtain ⟨s, hs, hid, -⟩ := hfrom r' hr'
    exact hid ▸ h.below s hs
  · intro r' hr'
    obtain ⟨s, hs, -, hu, hv⟩ := hfrom r' hr'
    rw [← hu, ← hv]
    exact h.distinct s hs
  · refine forall_mem_set (fun c hc => (h.calls c hc).mono le_rfl fun r' hr' _ => hfrom r' hr') ?_
    trivial
  · refine List.forall_mem_cons.mpr ⟨?_, h.past⟩
    rw [hf.row]
    exact h.below r hr
  · intro d hd r' hr' he
    obtain ⟨s, hs, hid, hu, hv⟩ := hfrom r' hr'
    rw [← hu, ← hv]
    rcases List.mem_cons.mp hd with rfl | hd
    · obtain rfl := h.eq_of_id hs hr (hid.trans (he.trans hf.row))
      exact ⟨hf.requested, hf.accepted⟩
    · exact h.deeds d hd s hs (hid.trans he)
  · intro r' hr' hcounts
    rcases hrows r' hr' with rfl | ⟨hs, hne⟩
    · exact hf.standing hcounts
    · exact (h.standing r' hs hcounts).cons (hf.others r' hs hne hcounts)
  · refine notOwn_cons h.notOwn (fun hreq d hd ha hid => ?_) fun hacc e he hq hid => ?_
    · rw [(h.deeds d hd r hr (hf.row.symm.trans hid.symm)).2 ha, hf.requested hreq]
      exact (h.distinct r hr).symm
    · rw [(h.deeds e he r hr (hf.row.symm.trans hid)).1 hq, hf.accepted hacc]
      exact (h.distinct r hr).symm
  · intro r₁ hr₁ r₂ hr₂ hc₁ hc₂ hjoins
    rcases hrows r₁ hr₁ with rfl | ⟨hs₁, hne₁⟩ <;> rcases hrows r₂ hr₂ with rfl | ⟨hs₂, hne₂⟩
    · rfl
    · rw [hf.userId, hf.friendId] at hjoins
      exact absurd hjoins (hf.single hc₁ r₂ hs₂ hne₂ hc₂)
    · rw [Friendship.Joins, hf.userId, hf.friendId] at hjoins
      have hback : r.Joins r₁.userId r₁.friendId := hjoins
      exact absurd (hback.row r₁.joins_self) (hf.single hc₂ r₁ hs₁ hne₁ hc₁)
    · exact h.single r₁ hs₁ r₂ hs₂ hc₁ hc₂ hjoins

/-- A new request, where no row of the pair counts. -/
theorem FriendInv.concat (h : FriendInv w) (hne : a ≠ b) {remark : Option String}
    (hfree : ∀ s ∈ w.rows, s.Counts → ¬s.Joins a b) :
    FriendInv
      { w with
          rows := w.rows ++
            [{ id := w.nextId, userId := a, friendId := b, status := .pending
               remark, createdAt := w.clock }]
          nextId := w.nextId + 1
          calls := w.calls.set k (.returned w.nextId)
          history := ⟨.requested, w.nextId, a, b⟩ :: w.history } := by
  have hrows : ∀ {r'} {new : Friendship}, r' ∈ w.rows ++ [new] → r' ∈ w.rows ∨ r' = new :=
    fun hr' => (List.mem_append.mp hr').imp_right List.mem_singleton.mp
  constructor
  · exact Keyed.nodup_append_singleton h.ids fun r hr => (h.below r hr).ne
  · exact Keyed.below_concat h.below (Nat.le_succ _) (Nat.lt_succ_self _)
  · intro r hr
    rcases hrows hr with hr | rfl
    · exact h.distinct r hr
    · exact hne
  · refine forall_mem_set (fun c hc => (h.calls c hc).mono (Nat.le_succ _) fun r' hr' hlt => ?_) ?_
    · rcases hrows hr' with hr | rfl
      · exact ⟨r', hr, rfl, rfl, rfl⟩
      · exact absurd hlt (lt_irrefl _)
    · trivial
  · refine List.forall_mem_cons.mpr ⟨Nat.lt_succ_self _, fun d hd => ?_⟩
    exact (h.past d hd).trans (Nat.lt_succ_self _)
  · intro d hd r hr he
    rcases List.mem_cons.mp hd with rfl | hold <;> rcases hrows hr with hrow | rfl
    · exact absurd he (h.below r hrow).ne
    · exact ⟨fun _ => rfl, nofun⟩
    · exact h.deeds d hold r hrow he
    · exact absurd he.symm (h.past d hold).ne
  · intro r hr hcounts
    rcases hrows hr with hrow | rfl
    · refine (h.standing r hrow hcounts).cons ?_
      rintro (⟨hact | hact, -⟩ | ⟨hact, -⟩) <;> cases hact
    · exact ⟨[], ⟨⟨w.history, rfl⟩, nofun⟩, nofun⟩
  · refine notOwn_cons h.notOwn (fun _ d hd _ hid => ?_) nofun
    exact absurd hid (h.past d hd).ne
  · intro r hr s hs hc hc' hjoins
    rcases hrows hr with hr | rfl <;> rcases hrows hs with hs | rfl
    · exact h.single r hr s hs hc hc' hjoins
    · exact absurd (hjoins.row r.joins_self) (hfree r hr hc)
    · exact absurd hjoins (hfree s hs hc')
    · rfl

/-- A row is gone, with a deed that is about it. -/
theorem FriendInv.erase (h : FriendInv w) (hr : r ∈ w.rows) :
    FriendInv
      { w with
          rows := Keyed.erase Friendship.id r.id w.rows
          calls := w.calls.set k (.returned r.id)
          history := ⟨.cancelled, r.id, a, b⟩ :: w.history } := by
  have hrows : ∀ s ∈ Keyed.erase Friendship.id r.id w.rows, s ∈ w.rows ∧ s.id ≠ r.id :=
    fun s hs => Keyed.mem_erase.mp hs
  constructor
  · exact Keyed.nodup_erase h.ids
  · exact fun s hs => h.below s (hrows s hs).1
  · exact fun s hs => h.distinct s (hrows s hs).1
  · refine forall_mem_set (fun c hc => (h.calls c hc).mono le_rfl fun s hs _ => ?_) ?_
    · exact ⟨s, (hrows s hs).1, rfl, rfl, rfl⟩
    · trivial
  · exact List.forall_mem_cons.mpr ⟨h.below r hr, h.past⟩
  · intro d hd s hs he
    rcases List.mem_cons.mp hd with rfl | hold
    · exact ⟨nofun, nofun⟩
    · exact h.deeds d hold s (hrows s hs).1 he
  · intro s hs hcounts
    obtain ⟨hrow, hne⟩ := hrows s hs
    refine (h.standing s hrow hcounts).cons ?_
    rintro (⟨-, hid⟩ | ⟨hact, -⟩)
    · exact hne hid.symm
    · cases hact
  · exact notOwn_cons h.notOwn nofun nofun
  · exact fun s hs t ht => h.single s (hrows s hs).1 t (hrows t ht).1

/-- What the guard of the rows that count says. -/
theorem not_joins_of_otherCounts (h : otherCounts w.rows id a b = false) :
    ∀ s ∈ w.rows, s.id ≠ id → s.Counts → ¬s.Joins a b := by
  intro s hs hne hcounts hjoins
  rw [otherCounts, List.any_eq_false] at h
  exact h s hs (decide_eq_true ⟨hne, hjoins, hcounts⟩)

theorem FriendInv.resend (h : FriendInv w) {remark : Option String}
    (hcall : w.calls[k]? = some (.resending id a b remark))
    (hok : keepsConsent w (.write k) = true) : FriendInv (w.resend k id a b remark) := by
  have hknows := h.calls _ (List.mem_of_getElem? hcall)
  simp only [keepsConsent, hcall] at hok
  unfold FriendWorld.resend
  split
  · exact h.goto trivial
  · rename_i r hlookup
    obtain ⟨hr, rfl⟩ := Keyed.mem_of_lookup hlookup
    simp only [hlookup, Option.all_some, Bool.and_eq_true, beq_iff_eq, Bool.not_eq_true'] at hok
    obtain ⟨rfl, hothers⟩ := hok
    -- the sender is the row's, so the other is its receiver
    obtain rfl : r.friendId = b := by
      rcases hknows.2 r hr rfl with h' | h'
      · exact h'.2
      · exact absurd h'.2.symm (h.distinct r hr)
    refine h.update hr ⟨fun _ => rfl, fun _ => rfl, fun _ => rfl, rfl, fun _ => rfl, by rintro ⟨⟩,
      ?_, ?_, fun _ => not_joins_of_otherCounts hothers⟩
    · rintro s - - - (⟨hact | hact, -⟩ | ⟨hact, -⟩) <;> cases hact
    · exact fun _ => ⟨[], ⟨⟨w.history, rfl⟩, by rintro _ ⟨⟩⟩, by rintro ⟨⟩⟩

theorem otherOf_sender : FriendWorld.otherOf r r.userId = r.friendId := if_pos rfl

theorem otherOf_receiver (h : r.userId ≠ r.friendId) :
    FriendWorld.otherOf r r.friendId = r.userId := if_neg h

theorem FriendInv.finish (h : FriendInv w) {operation : FriendOperation}
    (hcall : w.calls[k]? = some (.writing operation id a))
    (hok : keepsConsent w (.write k) = true) : FriendInv (w.finish k operation id a) := by
  have hknows := h.calls _ (List.mem_of_getElem? hcall)
  unfold FriendWorld.finish
  split
  · exact h.goto trivial
  · rename_i r hlookup
    obtain ⟨hr, rfl⟩ := Keyed.mem_of_lookup hlookup
    have hparty := hknows.2 r hr rfl
    cases operation with
    | accept =>
        obtain rfl : r.friendId = a := hparty
        simp only [keepsConsent, hcall, hlookup, Option.all_some, decide_eq_true_eq] at hok
        rw [otherOf_receiver (h.distinct r hr)]
        refine h.update hr ⟨fun _ => rfl, fun _ => rfl, fun _ => rfl, rfl, by rintro ⟨⟩,
          fun _ => rfl, ?_, fun _ => ?_, fun _ s hs hne hcounts hjoins => ?_⟩
        · rintro s - - - (⟨hact | hact, -⟩ | ⟨hact, -⟩) <;> cases hact
        · obtain ⟨later, ⟨⟨earlier, hhistory⟩, hends⟩, -⟩ := h.standing r hr hok
          refine ⟨⟨.accepted, r.id, r.friendId, r.userId⟩ :: later, ⟨⟨earlier, ?_⟩, ?_⟩,
            fun _ => List.mem_cons_self⟩
          · rw [hhistory]
            rfl
          · refine List.forall_mem_cons.mpr ⟨?_, hends⟩
            rintro (⟨hact | hact, -⟩ | ⟨hact, -⟩) <;> cases hact
        · exact hne (congrArg _ (h.single r hr s hs hok hcounts hjoins)).symm
    | reject =>
        refine h.update hr ⟨fun _ => rfl, fun _ => rfl, fun _ => rfl, rfl, by rintro ⟨⟩,
          by rintro ⟨⟩, ?_, ?_, ?_⟩
        · rintro s - hne - (⟨-, hid⟩ | ⟨hact, -⟩)
          · exact hne hid.symm
          · cases hact
        · rintro (hstatus | hstatus) <;> cases hstatus
        · rintro (hstatus | hstatus) <;> cases hstatus
    | cancel => exact h.erase hr
    | remove =>
        simp only [keepsConsent, hcall, hlookup, Option.all_some, Bool.not_eq_true'] at hok
        refine h.update hr ⟨fun _ => rfl, fun _ => rfl, fun _ => rfl, rfl, by rintro ⟨⟩,
          by rintro ⟨⟩, ?_, ?_, ?_⟩
        · rintro s hs hne hcounts (⟨hact | hact, -⟩ | ⟨-, hbetween⟩)
          · cases hact
          · cases hact
          · -- a removal between the users of `s` is one of the pair that `r` joins
            have hpair : s.Joins a (FriendWorld.otherOf r a) :=
              hbetween.imp (fun h => ⟨h.1.symm, h.2.symm⟩) fun h => ⟨h.2.symm, h.1.symm⟩
            refine not_joins_of_otherCounts hok s hs hne hcounts ?_
            rcases hparty with rfl | rfl
            · exact otherOf_sender (r := r) ▸ hpair
            · exact (otherOf_receiver (h.distinct r hr) ▸ hpair).symm
        · rintro (hstatus | hstatus) <;> cases hstatus
        · rintro (hstatus | hstatus) <;> cases hstatus

/-- A check lets those through that the call is to know of at its write. -/
theorem checkRequest_ok {party : Friendship → ℕ} {request : Option Friendship} {userId : ℕ}
    (h : checkRequest party request userId = .ok ()) :
    ∃ r, request = some r ∧ party r = userId ∧ r.status = .pending := by
  unfold checkRequest at h
  split at h
  · cases h
  · rename_i r
    split at h
    · cases h
    · rename_i hparty
      split at h
      · cases h
      · rename_i hstatus
        exact ⟨r, rfl, not_not.mp hparty, not_not.mp hstatus⟩

theorem removeFriend_ok {friendship : Option Friendship} {userId : ℕ}
    (h : removeFriend friendship userId = .ok ()) :
    ∃ r, friendship = some r ∧ (r.userId = userId ∨ r.friendId = userId) := by
  unfold removeFriend at h
  split at h
  · cases h
  · rename_i r
    split at h
    · cases h
    · rename_i hparty
      exact ⟨r, rfl, by tauto⟩

theorem FriendInv.knows_writing (h : FriendInv w) {operation : FriendOperation} {userId : ℕ}
    (hcheck : operation.check (Keyed.lookup Friendship.id id w.rows) userId = .ok ()) :
    CallKnows w (.writing operation id userId) := by
  have hof : ∀ r, Keyed.lookup Friendship.id id w.rows = some r →
      r.id = id ∧ r.id < w.nextId ∧ ∀ s ∈ w.rows, s.id = id → s = r := by
    intro r hlookup
    obtain ⟨hr, hid⟩ := Keyed.mem_of_lookup hlookup
    exact ⟨hid, h.below r hr, fun s hs he => h.eq_of_id hs hr (he.trans hid.symm)⟩
  cases operation with
  | accept =>
      obtain ⟨r, hlookup, hparty, -⟩ := checkRequest_ok hcheck
      obtain ⟨rfl, hlt, hrow⟩ := hof r hlookup
      exact ⟨hlt, fun s hs he => hrow s hs he ▸ hparty⟩
  | reject =>
      obtain ⟨r, hlookup, hparty, -⟩ := checkRequest_ok hcheck
      obtain ⟨rfl, hlt, hrow⟩ := hof r hlookup
      exact ⟨hlt, fun s hs he => hrow s hs he ▸ hparty⟩
  | cancel =>
      obtain ⟨r, hlookup, hparty, -⟩ := checkRequest_ok hcheck
      obtain ⟨rfl, hlt, hrow⟩ := hof r hlookup
      exact ⟨hlt, fun s hs he => hrow s hs he ▸ hparty⟩
  | remove =>
      obtain ⟨r, hlookup, hparty⟩ := removeFriend_ok hcheck
      obtain ⟨rfl, hlt, hrow⟩ := hof r hlookup
      exact ⟨hlt, fun s hs he => hrow s hs he ▸ hparty⟩

/-- What a request goes on to do, it does to the row that it has read. -/
theorem FriendInv.proceed (h : FriendInv w) {userId friendId : ℕ} {remark : Option String}
    {existing : Option Friendship} (hne : userId ≠ friendId)
    (hexisting : ∀ r, existing = some r → r ∈ w.rows ∧ r.Joins userId friendId) :
    FriendInv (w.proceed k userId friendId remark (sendFriendRequest existing userId friendId)) := by
  unfold sendFriendRequest
  split
  · exact h.goto hne
  · rename_i r
    obtain ⟨hr, hjoins⟩ := hexisting r rfl
    split
    · exact h.goto trivial
    · split
      · exact h.goto trivial
      · exact h.goto trivial
    · refine h.goto ⟨h.below r hr, fun s hs he => ?_⟩
      obtain rfl := h.eq_of_id hs hr he
      exact hjoins
    · exact h.goto hne

/-- One step within the guard keeps the invariant. -/
theorem FriendInv.step (h : FriendInv w) (hok : keepsConsent w event = true)
    (hs : friendStep w event = some w') : FriendInv w' := by
  cases event with
  | sendFriendRequest userId friendId remark =>
      simp only [friendStep, Option.ite_none_left_eq_some, Option.some.injEq] at hs
      obtain ⟨hne, rfl⟩ := hs
      exact h.start hne
  | operate operation id userId =>
      obtain rfl := Option.some.inj hs
      exact h.start trivial
  | findFirst k i =>
      simp only [friendStep] at hs
      split at hs
      · rename_i userId friendId remark hcall
        have hne : userId ≠ friendId := h.calls _ (List.mem_of_getElem? hcall)
        split at hs
        · obtain rfl := Option.some.inj hs
          exact h.proceed hne nofun
        · obtain ⟨r, hget, rfl⟩ := Option.map_eq_some_iff.mp hs
          have hmem := List.mem_of_getElem? hget
          rw [List.mem_filter, decide_eq_true_eq] at hmem
          refine h.proceed hne fun s he => ?_
          obtain rfl := Option.some.inj he
          exact hmem
      · cases hs
  | findUnique k =>
      simp only [friendStep] at hs
      split at hs
      · split at hs
        · obtain rfl := Option.some.inj hs
          exact h.goto trivial
        · rename_i hcheck
          obtain rfl := Option.some.inj hs
          exact h.goto (h.knows_writing hcheck)
      · cases hs
  | write k =>
      simp only [friendStep] at hs
      split at hs
      · rename_i userId friendId remark hcall
        obtain rfl := Option.some.inj hs
        have hne : userId ≠ friendId := h.calls _ (List.mem_of_getElem? hcall)
        unfold FriendWorld.create
        split
        · exact h.goto trivial
        · rename_i hindex
          simp only [keepsConsent, hcall, Bool.eq_false_iff.mpr hindex, Bool.false_or,
            Bool.not_eq_true', List.any_eq_false, decide_eq_true_eq] at hok
          exact h.concat hne fun s hmem hcounts hjoins => hok s hmem ⟨hjoins, hcounts⟩
      · rename_i hcall
        obtain rfl := Option.some.inj hs
        exact h.resend hcall hok
      · rename_i hcall
        obtain rfl := Option.some.inj hs
        exact h.finish hcall hok
      · cases hs
  | tick now =>
      simp only [friendStep, Option.ite_none_right_eq_some, Option.some.injEq] at hs
      obtain ⟨-, rfl⟩ := hs
      exact { h with calls := fun c hc => (h.calls c hc).mono le_rfl fun r hr _ =>
        ⟨r, hr, rfl, rfl, rfl⟩ }

end Invariant

theorem friendInv_empty : FriendInv {} where
  ids := List.nodup_nil
  below := nofun
  distinct := nofun
  calls := nofun
  past := nofun
  deeds := nofun
  standing := nofun
  notOwn := nofun
  single := nofun

/-- In every run whose writes keep to what has been agreed, friends are friends by consent. -/
theorem friendships_consented {w : FriendWorld}
    (h : Machine.Reach friendStep (fun w event => keepsConsent w event = true) {} w) :
    FriendshipsConsented w := by
  have hinv : FriendInv w := h.invariant friendInv_empty fun ht hok hs => ht.step hok hs
  exact hinv.consented

/-- A request, its rejection and another request, and a counter-request. -/
def agreedRun : List FriendEvent :=
  [.sendFriendRequest 1 2 none, .findFirst 0 0, .write 0,
   .operate .reject 1 2, .findUnique 1, .write 1,
   .sendFriendRequest 1 2 (some "again"), .findFirst 2 0, .write 2,
   .sendFriendRequest 2 1 none, .findFirst 3 0, .findUnique 3, .write 3]

def agreedWorld : FriendWorld where
  rows := [⟨1, 1, 2, .accepted, some "again", 0, some 0, none⟩]
  nextId := 2
  calls := [.returned 1, .returned 1, .returned 1, .returned 1]
  history := [⟨.accepted, 1, 2, 1⟩, ⟨.requested, 1, 1, 2⟩, ⟨.rejected, 1, 2, 1⟩,
    ⟨.requested, 1, 1, 2⟩]

theorem friendships_consented_agreed :
    areFriends agreedWorld.rows 1 2 = true ∧ FriendshipsConsented agreedWorld := by
  have hrun : Machine.exec (Machine.guarded friendStep keepsConsent) {} agreedRun =
      some agreedWorld := by decide
  exact ⟨rfl, friendships_consented (Machine.reach_of_exec_guarded hrun)⟩

/-- The one whose rejection it was asks in turn, and accepts what he has asked. -/
def ownRequestRun : List FriendEvent :=
  [.sendFriendRequest 1 2 none, .findFirst 0 0, .write 0,
   .operate .reject 1 2, .findUnique 1, .write 1,
   .sendFriendRequest 2 1 none, .findFirst 2 0, .write 2,
   .operate .accept 1 2, .findUnique 3, .write 3]

/-- Friends, and the first user has never agreed to it since he was rejected. -/
theorem friends_by_own_acceptance :
    ∃ w, Machine.Reach friendStep Machine.free {} w ∧ areFriends w.rows 1 2 = true ∧
      ¬FriendshipsConsented w := by
  let w : FriendWorld :=
    { rows := [⟨1, 1, 2, .accepted, none, 0, some 0, none⟩]
      nextId := 2
      calls := [.returned 1, .returned 1, .returned 1, .returned 1]
      history := [⟨.accepted, 1, 2, 1⟩, ⟨.requested, 1, 2, 1⟩, ⟨.rejected, 1, 2, 1⟩,
        ⟨.requested, 1, 1, 2⟩] }
  have hrun : Machine.exec friendStep {} ownRequestRun = some w := by decide
  refine ⟨w, Machine.reach_of_exec hrun, rfl, fun h => ?_⟩
  exact h.notOwn ⟨.accepted, 1, 2, 1⟩ (by decide) ⟨.requested, 1, 2, 1⟩ (by decide) rfl rfl rfl rfl

end Incudal
