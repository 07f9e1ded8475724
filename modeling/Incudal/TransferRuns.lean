/-
# `TransferRuns` — one open transfer, one fee, one owner, over whole runs

Every step has one of three effects on the transfers and the books
(`TransferEffect`): rows move without touching the books, a transfer is opened
and its fee debited, or one is returned and its fee refunded.  The invariant
(`TransferInv`) keeps, for each transfer, the exact list of its two kinds of
balance log.

The cancellation that comes with the deletion of an instance ends a transfer
without a refund; it is the one step that breaks the books, and only where the
transfer it cancels has a fee (`transfers_safe`).
-/
import Incudal.Transfers
import Mathlib.Tactic.Ring

namespace Incudal

/-! ## Events -/

/-- The tables, and what operations other than transfers have added to each balance. -/
structure TransferWorld where
  db : TransferDb
  outside : ℕ → Units := fun _ => 0

/-- A step of a transfer, or of some other part of the program, which may do
anything to an instance except hand it over. -/
inductive TransferEvent
  | create (d : CreateTransfer)
  | claim (d : ClaimTransfer)
  | markPhase (transferId : ℕ) (claimToken phase : String)
  | rollback (transferId : ℕ) (claimToken : String)
  | cleanupTimeout (now : Time)
  | settle (transferId actorUserId : ℕ) (outcome : TransferOutcome) (now : Time)
  | execute (d : TransferExecutionData) (now : Time)
  | cancelPending (instanceId : ℕ) (now : Time)
  | editInstance (instanceId : ℕ) (name incusId : String) (status : InstanceStatus)
      (displayOrder version : ℕ)
  | setTasks (instanceId taskCount : ℕ)
  | attach (instanceId : ℕ) (rows : CleanupSnapshot)
  | addBalance (userId : ℕ) (amount : Units)
deriving DecidableEq, Repr

/-- The world after a transaction; one that throws is not a step. -/
def TransferWorld.commit (w : TransferWorld) : Except String TransferDb → Option TransferWorld
  | .ok db => some { w with db }
  | .error _ => none

def transferStep (w : TransferWorld) : TransferEvent → Option TransferWorld
  | .create d => w.commit (createTransferWithFee w.db d)
  | .claim d => w.commit (claimTransferTransaction w.db d)
  | .markPhase transferId claimToken phase =>
      some { w with db := markTransferPhase w.db transferId claimToken phase }
  | .rollback transferId claimToken =>
      some { w with db := rollbackProcessingTransfer w.db transferId claimToken }
  | .cleanupTimeout now => some { w with db := cleanupTimeoutTransfers w.db now }
  | .settle transferId actorUserId outcome now =>
      w.commit ((settleTransferWithRefund w.db transferId actorUserId outcome now).map
        (·.getD w.db))
  | .execute d now => w.commit (executeTransferTransaction w.db d now)
  | .cancelPending instanceId now =>
      some { w with db := cancelPendingTransfers w.db instanceId now }
  | .editInstance instanceId name incusId status displayOrder version =>
      some { w with
        db := { w.db with
          instances := Function.update w.db.instances instanceId
            ((w.db.instances instanceId).map
              ({ · with name, incusId, status, displayOrder, version })) } }
  | .setTasks instanceId taskCount =>
      some { w with
        db := { w.db with taskCount := Function.update w.db.taskCount instanceId taskCount } }
  | .attach instanceId rows =>
      some { w with
        db := { w.db with attached := Function.update w.db.attached instanceId rows } }
  | .addBalance userId amount =>
      some
        { db := { w.db with
            balance := Function.update w.db.balance userId
              ((w.db.balance userId).map (· + amount)) }
          outside := Function.update w.outside userId (w.outside userId + amount) }

/-- A deletion cancels no pending transfer that has a fee. -/
def CancelsNoFee (w : TransferWorld) : TransferEvent → Prop
  | .cancelPending instanceId _ =>
      ∀ t ∈ w.db.transfers, t.instanceId = instanceId → t.status = .pending → t.fee = none
  | _ => True

/-! ## What is safe -/

namespace TransferDb

variable (db : TransferDb)

/-- The balance logs of one type for a transfer: whose balance, and by how much. -/
def entries (type : TransferLogType) (transferId : ℕ) : List (ℕ × Units) :=
  (db.balanceLogs.filter fun l => l.type == type && l.transferId == transferId).map
    fun l => (l.userId, l.amount)

/-- The amount that transfers moved on a user's balance. -/
def moved (userId : ℕ) : Units :=
  Keyed.total (fun l : TransferLog => if l.userId = userId then l.amount else 0) db.balanceLogs

/-- The transfers of an instance that are pending or processing. -/
def openTransfers (instanceId : ℕ) : List InstanceTransfer :=
  db.transfers.filter fun t => t.instanceId == instanceId && t.isOpen

end TransferDb

/-- The fee of a transfer as an amount on its sender's balance. -/
def InstanceTransfer.feeEntry (t : InstanceTransfer) : List (ℕ × Units) :=
  (t.fee.map fun fee => (t.fromUserId, toUnits fee)).toList

/-- At most one open transfer an instance; the fee debited once, refunded once
when the transfer ends rejected or cancelled and never otherwise; and balances
that move by the logged amounts only. -/
structure TransfersSafe (w₀ w : TransferWorld) : Prop where
  oneOpen : ∀ instanceId, (w.db.openTransfers instanceId).length ≤ 1
  debited : ∀ t ∈ w.db.transfers,
    w.db.entries .transferFee t.id = t.feeEntry.map fun e => (e.1, -e.2)
  refunded : ∀ t ∈ w.db.transfers,
    w.db.entries .transferRefund t.id
      = if t.status = .rejected ∨ t.status = .cancelled then t.feeEntry else []
  balances : ∀ userId,
    w.db.balance userId
      = (w₀.db.balance userId).map (· + w.outside userId + w.db.moved userId)

/-- A step that hands an instance over is the execution of a transfer whose
current claim it holds, of the instance version and Incus id of that claim, to
the receiver of that transfer. -/
def HandsOverByClaim (w : TransferWorld) (e : TransferEvent) (w' : TransferWorld) : Prop :=
  ∀ i inst inst', w.db.instances i = some inst → w'.db.instances i = some inst' →
    inst'.userId ≠ inst.userId →
    ∃ d now, e = .execute d now ∧ d.instanceId = i ∧
      inst.version = d.instanceVersion ∧ inst.incusId = d.oldIncusId ∧
      ∃ t ∈ w.db.transfers, t.id = d.transferId ∧ t.status = .processing ∧
        t.claimToken = some d.claimToken ∧ t.instanceId = i ∧
        t.instanceVersion = some inst.version ∧ t.oldIncusId = some inst.incusId ∧
        inst.userId = t.fromUserId ∧ inst'.userId = t.toUserId

/-- Before any transfer. -/
structure TransferWorld.TransferStart (w : TransferWorld) : Prop where
  transfers : w.db.transfers = []
  balanceLogs : w.db.balanceLogs = []
  outside : w.outside = fun _ => 0

/-! ## The three effects -/

section Effects

variable {db db' : TransferDb} {t t' : InstanceTransfer}

/-- A rewrite of a row that leaves its books alone. -/
structure SameTransfer (t t' : InstanceTransfer) : Prop where
  id : t'.id = t.id
  instanceId : t'.instanceId = t.instanceId
  fromUserId : t'.fromUserId = t.fromUserId
  fee : t'.fee = t.fee

/-- The books are left alone. -/
structure SameTransferBooks (db db' : TransferDb) : Prop where
  balance : db'.balance = db.balance
  balanceLogs : db'.balanceLogs = db.balanceLogs

/-- One log is written, and its user's balance moved by its amount. -/
def PostsTransferLog (db db' : TransferDb) (log : TransferLog) : Prop :=
  (∃ balance, db.balance log.userId = some balance ∧
    db'.balance = Function.update db.balance log.userId (some (balance + log.amount))) ∧
  db'.balanceLogs = db.balanceLogs ++ [log]

/-- The fee of a transfer is booked under a type with a sign, if it has one. -/
def BooksFee (db db' : TransferDb) (t : InstanceTransfer) (type : TransferLogType) (sign : ℤ) :
    Prop :=
  (t.fee = none ∧ SameTransferBooks db db') ∨
  ∃ fee log, t.fee = some fee ∧ PostsTransferLog db db' log ∧ log.userId = t.fromUserId ∧
    log.type = type ∧ log.transferId = t.id ∧ log.amount = sign * toUnits fee

inductive TransferEffect (db db' : TransferDb) : Prop
  | rows {f : InstanceTransfer → InstanceTransfer}
      (transfers : db'.transfers = db.transfers.map f) (nextId : db'.nextId = db.nextId)
      (same : ∀ t, SameTransfer t (f t))
      (refundedAt : ∀ t, (f t).refundedAt = t.refundedAt)
      (isOpen : ∀ t, (f t).isOpen = true → t.isOpen = true)
      (isReturned : ∀ t ∈ db.transfers, (f t).isReturned = t.isReturned ∨ t.fee = none)
      (books : SameTransferBooks db db')
  | opened {t : InstanceTransfer}
      (transfers : db'.transfers = db.transfers ++ [t]) (nextId : db'.nextId = db.nextId + 1)
      (id : t.id = db.nextId) (pending : t.status = .pending) (refundedAt : t.refundedAt = none)
      (alone : ∀ r ∈ db.transfers, r.isOpen = true → r.instanceId ≠ t.instanceId)
      (fee : ∀ fee ∈ t.fee, 0 < fee) (books : BooksFee db db' t .transferFee (-1))
  | returned {t : InstanceTransfer} {f : InstanceTransfer → InstanceTransfer}
      (transfers : db'.transfers = db.transfers.map f) (nextId : db'.nextId = db.nextId)
      (mem : t ∈ db.transfers) (pending : t.status = .pending)
      (same : ∀ r, SameTransfer r (f r)) (others : ∀ r, r.id ≠ t.id → f r = r)
      (closed : (f t).isReturned = true) (books : BooksFee db db' t .transferRefund 1)

theorem isOpen_of_pending (h : t.status = .pending) : t.isOpen = true := by
  simp [InstanceTransfer.isOpen, h]

theorem isOpen_of_processing (h : t.status = .processing) : t.isOpen = true := by
  simp [InstanceTransfer.isOpen, h]

theorem isReturned_eq_false (h : t.isOpen = true) : t.isReturned = false := by
  simp only [InstanceTransfer.isOpen, Bool.or_eq_true, beq_iff_eq] at h
  rcases h with h | h <;> simp [InstanceTransfer.isReturned, h]

theorem not_isOpen_of_returned (h : t.isReturned = true) : t.isOpen = false := by
  cases ho : t.isOpen with
  | false => rfl
  | true => simp [isReturned_eq_false ho] at h

theorem SameTransfer.refl : SameTransfer t t := ⟨rfl, rfl, rfl, rfl⟩

theorem SameTransfer.feeEntry (h : SameTransfer t t') : t'.feeEntry = t.feeEntry := by
  simp [InstanceTransfer.feeEntry, h.fee, h.fromUserId]

/-- `updateMany` on rows that are open, and stay open or become accepted. -/
theorem effect_updateTransfers {p : InstanceTransfer → Bool}
    {g : InstanceTransfer → InstanceTransfer}
    (transfers : db'.transfers = (db.updateTransfers p g).transfers)
    (nextId : db'.nextId = db.nextId) (books : SameTransferBooks db db')
    (hp : ∀ t, p t = true → t.isOpen = true) (same : ∀ t, SameTransfer t (g t))
    (refundedAt : ∀ t, (g t).refundedAt = t.refundedAt)
    (kept : ∀ t, (g t).isReturned = t.isReturned ∨ (g t).isReturned = false) :
    TransferEffect db db' := by
  refine .rows transfers nextId ?_ ?_ ?_ ?_ books
  · intro t
    split
    · exact same t
    · exact .refl
  · intro t
    split
    · exact refundedAt t
    · rfl
  · intro t h
    split at h
    · rename_i hpt
      exact hp t hpt
    · exact h
  · intro t _
    left
    split
    · rename_i hpt
      rcases kept t with h | h
      · exact h
      · rw [h, isReturned_eq_false (hp t hpt)]
    · rfl

/-- Nothing happens to transfers and books. -/
theorem effect_unchanged (transfers : db'.transfers = db.transfers)
    (nextId : db'.nextId = db.nextId) (books : SameTransferBooks db db') :
    TransferEffect db db' :=
  .rows (transfers.trans (List.map_id _).symm) nextId (fun _ => .refl) (fun _ => rfl)
    (fun _ h => h) (fun _ _ => .inl rfl) books

/-- Booking is about balances and logs alone. -/
theorem BooksFee.congr {db'' : TransferDb} {type : TransferLogType} {sign : ℤ}
    (h : BooksFee db db' t type sign) (balance : db''.balance = db'.balance)
    (balanceLogs : db''.balanceLogs = db'.balanceLogs) : BooksFee db db'' t type sign := by
  rcases h with ⟨hfee, hsame⟩ | ⟨fee, log, hfee, ⟨⟨before, hfound, hbalance⟩, hlogs⟩, hlog⟩
  · exact .inl ⟨hfee, balance.trans hsame.balance, balanceLogs.trans hsame.balanceLogs⟩
  · exact .inr ⟨fee, log, hfee,
      ⟨⟨before, hfound, balance.trans hbalance⟩, balanceLogs.trans hlogs⟩, hlog⟩

theorem createTransferWithFee_effect {d : CreateTransfer}
    (h : createTransferWithFee db d = .ok db') : TransferEffect db db' := by
  unfold createTransferWithFee at h
  split at h
  · cases h
  split at h
  · cases h
  rename_i hnone
  have halone : ∀ r ∈ db.transfers, r.isOpen = true → r.instanceId ≠ d.instanceId := by
    intro r hr hopen he
    refine hnone (List.any_eq_true.mpr ⟨r, hr, ?_⟩)
    simp [he, hopen]
  dsimp only at h
  split at h
  · rename_i hfee
    unfold debitTransferFee at h
    split at h
    · cases h
    rename_i balance hbalance
    split at h
    · cases h
    cases h
    refine .opened rfl rfl rfl rfl rfl halone ?_
      (.inr ⟨d.fee, _, rfl, ⟨⟨balance, hbalance, rfl⟩, rfl⟩, rfl, rfl, rfl, ?_⟩)
    · intro fee hmem
      obtain rfl := Option.mem_some_iff.mp hmem
      exact hfee
    · simp
  · cases h
    refine .opened rfl rfl rfl rfl rfl halone ?_ (.inl ⟨rfl, rfl, rfl⟩)
    intro fee hmem
    cases hmem

theorem claimTransferTransaction_effect {d : ClaimTransfer}
    (h : claimTransferTransaction db d = .ok db') : TransferEffect db db' := by
  unfold claimTransferTransaction at h
  split at h
  · cases h
  split at h
  · cases h
  split at h
  · cases h
  dsimp only at h
  split at h
  · cases h
  split at h
  · cases h
  cases h
  refine effect_updateTransfers rfl rfl ⟨rfl, rfl⟩ ?_ (fun _ => ⟨rfl, rfl, rfl, rfl⟩)
    (fun _ => rfl) (fun _ => .inr rfl)
  intro t ht
  simp only [Bool.and_eq_true, beq_iff_eq] at ht
  exact isOpen_of_pending ht.1.2

theorem isOpen_of_heldBy {k : ℕ} {token : String} (h : t.heldBy k token = true) :
    t.isOpen = true := by
  simp only [InstanceTransfer.heldBy, Bool.and_eq_true, beq_iff_eq] at h
  exact isOpen_of_processing h.1.2

theorem markTransferPhase_effect (k : ℕ) (token phase : String) :
    TransferEffect db (markTransferPhase db k token phase) :=
  effect_updateTransfers rfl rfl ⟨rfl, rfl⟩ (fun _ => isOpen_of_heldBy)
    (fun _ => ⟨rfl, rfl, rfl, rfl⟩) (fun _ => rfl) (fun _ => .inl rfl)

theorem rollbackProcessingTransfer_effect (k : ℕ) (token : String) :
    TransferEffect db (rollbackProcessingTransfer db k token) :=
  effect_updateTransfers rfl rfl ⟨rfl, rfl⟩ (fun _ => isOpen_of_heldBy)
    (fun _ => ⟨rfl, rfl, rfl, rfl⟩) (fun _ => rfl) (fun _ => .inr rfl)

theorem cleanupTimeoutTransfers_effect (now : Time) :
    TransferEffect db (cleanupTimeoutTransfers db now) := by
  refine effect_updateTransfers rfl rfl ⟨rfl, rfl⟩ ?_ (fun _ => ⟨rfl, rfl, rfl, rfl⟩)
    (fun _ => rfl) (fun _ => .inr rfl)
  intro t ht
  simp only [Bool.and_eq_true, beq_iff_eq] at ht
  exact isOpen_of_processing ht.1.1

/-- A settled row: closed, and otherwise the same. -/
theorem settle_same (now : Time) (outcome : TransferOutcome) (t : InstanceTransfer) :
    SameTransfer t (t.settle now outcome) ∧ (t.settle now outcome).isReturned = true := by
  cases outcome <;> exact ⟨⟨rfl, rfl, rfl, rfl⟩, rfl⟩

theorem refundFee_books {outcome : TransferOutcome} {name : String}
    (h : refundFee db t outcome name = .ok db') (hfee : ∀ fee ∈ t.fee, 0 < fee)
    (hun : t.refundedAt = none) :
    db'.transfers = db.transfers ∧ db'.nextId = db.nextId ∧ BooksFee db db' t .transferRefund 1 := by
  unfold refundFee at h
  split at h
  · rename_i hnone
    cases h
    exact ⟨rfl, rfl, .inl ⟨hnone, rfl, rfl⟩⟩
  · rename_i fee hsome
    rw [if_pos ⟨hfee fee hsome, hun⟩] at h
    split at h
    · cases h
    rename_i balance hbalance
    cases h
    exact ⟨rfl, rfl, .inr ⟨fee, _, hsome, ⟨⟨balance, hbalance, rfl⟩, rfl⟩, rfl, rfl, rfl,
      (one_mul _).symm⟩⟩

theorem settleTransferWithRefund_effect {k actor : ℕ} {outcome : TransferOutcome} {now : Time}
    (h : settleTransferWithRefund db k actor outcome now = .ok (some db'))
    (hfee : ∀ t ∈ db.transfers, ∀ fee ∈ t.fee, 0 < fee)
    (hun : ∀ t ∈ db.transfers, t.isOpen = true → t.refundedAt = none) :
    TransferEffect db db' := by
  unfold settleTransferWithRefund at h
  dsimp only at h
  split at h
  · cases h
  rename_i t hfind
  have hmem := List.mem_of_find?_eq_some hfind
  have hchosen := List.find?_some hfind
  simp only [Bool.and_eq_true, beq_iff_eq] at hchosen
  split at h
  · cases h
  rename_i refunded hrefund
  obtain ⟨htransfers, hnext, hbooks⟩ := refundFee_books hrefund (hfee t hmem)
    (hun t hmem (isOpen_of_pending hchosen.1.2))
  split at h
  · cases h
  cases h
  refine .returned (t := t) (by rw [← htransfers]; rfl) hnext hmem hchosen.1.2 ?_ ?_ ?_
    (hbooks.congr rfl rfl)
  · intro r
    split
    · exact (settle_same now outcome r).1
    · exact .refl
  · intro r hne
    refine if_neg fun hr => hne ?_
    simp only [Bool.and_eq_true, beq_iff_eq] at hr
    rw [hr.1.1, hchosen.1.1]
  · have : (t.id == k && t.status == .pending && t.actedBy actor outcome.actorRole) = true := by
      simp [hchosen]
    rw [if_pos this]
    exact (settle_same now outcome t).2

theorem accepted_effect {k : ℕ} {token : String} {now : Time}
    (transfers : db'.transfers = (db.updateTransfers (·.heldBy k token) (·.accept now)).transfers)
    (nextId : db'.nextId = db.nextId) (books : SameTransferBooks db db') :
    TransferEffect db db' :=
  effect_updateTransfers transfers nextId books (fun _ => isOpen_of_heldBy)
    (fun _ => ⟨rfl, rfl, rfl, rfl⟩) (fun _ => rfl) (fun _ => .inr rfl)

/-- What an execution finds, and what it writes to the instances. -/
theorem executeTransferTransaction_spec {d : TransferExecutionData} {now : Time}
    (h : executeTransferTransaction db d now = .ok db') :
    TransferEffect db db' ∧ ∃ transfer ∈ db.transfers, transfer.executedBy d = true ∧
      ∃ inst, db.instances d.instanceId = some inst ∧ inst.matches d = true ∧
        db'.instances = Function.update db.instances d.instanceId (some (inst.handOver d)) := by
  unfold executeTransferTransaction at h
  split at h
  · cases h
  rename_i transfer hfind
  have hmem := List.mem_of_find?_eq_some hfind
  have hexec := List.find?_some hfind
  split at h
  · cases h
  rename_i inst hinst
  split at h
  · cases h
  rename_i hmatches
  have hmatches : inst.matches d = true := by simpa using hmatches
  dsimp only at h
  split at h
  · cases h
  split at h
  · cases h
    exact ⟨accepted_effect rfl rfl ⟨rfl, rfl⟩, transfer, hmem, hexec, inst, hinst, hmatches, rfl⟩
  split at h
  · split at h
    · cases h
    cases h
    exact ⟨accepted_effect rfl rfl ⟨rfl, rfl⟩, transfer, hmem, hexec, inst, hinst, hmatches, rfl⟩
  · cases h
    exact ⟨accepted_effect rfl rfl ⟨rfl, rfl⟩, transfer, hmem, hexec, inst, hinst, hmatches, rfl⟩

theorem cancelPendingTransfers_effect {k : ℕ} {now : Time}
    (hfee : ∀ t ∈ db.transfers, t.instanceId = k → t.status = .pending → t.fee = none) :
    TransferEffect db (cancelPendingTransfers db k now) := by
  refine .rows rfl rfl ?_ ?_ ?_ ?_ ⟨rfl, rfl⟩
  · intro t
    split
    · exact ⟨rfl, rfl, rfl, rfl⟩
    · exact .refl
  · intro t
    split <;> rfl
  · intro t h
    split at h
    · simp [InstanceTransfer.isOpen] at h
    · exact h
  · intro t ht
    split
    · rename_i hp
      simp only [Bool.and_eq_true, beq_iff_eq] at hp
      exact .inr (hfee t ht hp.1 hp.2)
    · exact .inl rfl

end Effects

/-! ## The invariant -/

section Invariant

variable {w₀ w w' : TransferWorld} {db' : TransferDb} {t : InstanceTransfer} {log : TransferLog}

/-- The signed fee that the logs of a type show for a transfer. -/
def InstanceTransfer.booked (t : InstanceTransfer) : TransferLogType → List (ℕ × Units)
  | .transferFee => t.feeEntry.map fun e => (e.1, -e.2)
  | .transferRefund => if t.isReturned then t.feeEntry else []

structure TransferInv (w₀ w : TransferWorld) : Prop where
  ids : (w.db.transfers.map InstanceTransfer.id).Nodup
  old : ∀ t ∈ w.db.transfers, t.id < w.db.nextId
  logsOld : ∀ l ∈ w.db.balanceLogs, l.transferId < w.db.nextId
  oneOpen : ∀ t ∈ w.db.transfers, ∀ t' ∈ w.db.transfers, t.isOpen = true → t'.isOpen = true →
    t.instanceId = t'.instanceId → t.id = t'.id
  fee : ∀ t ∈ w.db.transfers, ∀ fee ∈ t.fee, 0 < fee
  unrefunded : ∀ t ∈ w.db.transfers, t.isOpen = true → t.refundedAt = none
  booked : ∀ t ∈ w.db.transfers, ∀ type, w.db.entries type t.id = t.booked type
  balances : ∀ userId,
    w.db.balance userId
      = (w₀.db.balance userId).map (· + w.outside userId + w.db.moved userId)

theorem inv_transferStart (h : w.TransferStart) : TransferInv w w := by
  refine ⟨?_, ?_, ?_, ?_, ?_, ?_, ?_, ?_⟩
  · simp [h.transfers]
  · simp [h.transfers]
  · simp [h.balanceLogs]
  · simp [h.transfers]
  · simp [h.transfers]
  · simp [h.transfers]
  · simp [h.transfers]
  · intro userId
    simp [TransferDb.moved, h.balanceLogs, h.outside]

theorem booked_of_same {t' : InstanceTransfer} (hs : SameTransfer t t')
    (h : t'.isReturned = t.isReturned ∨ t.fee = none) (type : TransferLogType) :
    t'.booked type = t.booked type := by
  cases type with
  | transferFee => simp only [InstanceTransfer.booked, hs.feeEntry]
  | transferRefund =>
      rcases h with h | h
      · simp only [InstanceTransfer.booked, hs.feeEntry, h]
      · simp [InstanceTransfer.booked, InstanceTransfer.feeEntry, hs.fee, h]

/-- A posted log enters the entries of its own type and transfer, and no others. -/
theorem entries_posted (h : PostsTransferLog w.db db' log) (type : TransferLogType) (k : ℕ) :
    db'.entries type k = w.db.entries type k
      ++ if log.type = type ∧ log.transferId = k then [(log.userId, log.amount)] else [] := by
  simp only [TransferDb.entries, h.2, List.filter_append, List.map_append]
  by_cases hl : log.type = type ∧ log.transferId = k
  · rw [if_pos hl, List.filter_cons_of_pos (by simp [hl])]
    rfl
  · rw [if_neg hl, List.filter_cons_of_neg (by simpa using hl)]
    rfl

theorem balances_posted (h : PostsTransferLog w.db db' log)
    (hb : ∀ userId, w.db.balance userId
      = (w₀.db.balance userId).map (· + w.outside userId + w.db.moved userId)) (userId : ℕ) :
    db'.balance userId
      = (w₀.db.balance userId).map (· + w.outside userId + db'.moved userId) := by
  obtain ⟨⟨balance, hfound, hbalance⟩, hlogs⟩ := h
  have hmoved : db'.moved userId
      = w.db.moved userId + if log.userId = userId then log.amount else 0 := by
    simp [TransferDb.moved, hlogs]
  rw [hbalance, hmoved]
  by_cases he : userId = log.userId
  · subst he
    have hown := hb log.userId
    rw [hfound] at hown
    obtain ⟨start, hstart, heq⟩ := Option.map_eq_some_iff.mp hown.symm
    rw [Function.update_self, hstart, if_pos rfl, ← heq]
    simp [add_assoc]
  · rw [Function.update_of_ne he, if_neg (Ne.symm he), hb userId]
    simp

theorem balances_kept (h : SameTransferBooks w.db db')
    (hb : ∀ userId, w.db.balance userId
      = (w₀.db.balance userId).map (· + w.outside userId + w.db.moved userId)) (userId : ℕ) :
    db'.balance userId
      = (w₀.db.balance userId).map (· + w.outside userId + db'.moved userId) := by
  rw [h.balance, hb userId, TransferDb.moved, TransferDb.moved, h.balanceLogs]

theorem entries_kept (h : SameTransferBooks w.db db') (type : TransferLogType) (k : ℕ) :
    db'.entries type k = w.db.entries type k := by
  simp only [TransferDb.entries, h.balanceLogs]

theorem balances_books {type : TransferLogType} {sign : ℤ} (h : BooksFee w.db db' t type sign)
    (hb : ∀ userId, w.db.balance userId
      = (w₀.db.balance userId).map (· + w.outside userId + w.db.moved userId)) (userId : ℕ) :
    db'.balance userId
      = (w₀.db.balance userId).map (· + w.outside userId + db'.moved userId) := by
  rcases h with ⟨-, hsame⟩ | ⟨fee, log, -, hpost, -⟩
  · exact balances_kept hsame hb userId
  · exact balances_posted hpost hb userId

/-- Booking a fee adds it to the entries of its type and transfer, and no others. -/
theorem entries_books {type : TransferLogType} {sign : ℤ} (h : BooksFee w.db db' t type sign)
    (type' : TransferLogType) (k : ℕ) :
    db'.entries type' k = w.db.entries type' k
      ++ if type = type' ∧ t.id = k then t.feeEntry.map (fun e => (e.1, sign * e.2)) else [] := by
  rcases h with ⟨hfee, hsame⟩ | ⟨fee, log, hfee, hpost, huser, htype, hid, hamount⟩
  · simp [entries_kept hsame, InstanceTransfer.feeEntry, hfee]
  · rw [entries_posted hpost, htype, hid, huser, hamount]
    simp [InstanceTransfer.feeEntry, hfee]

theorem logsOld_books {type : TransferLogType} {sign : ℤ} {n : ℕ}
    (h : BooksFee w.db db' t type sign) (ht : t.id < n)
    (hold : ∀ l ∈ w.db.balanceLogs, l.transferId < n) :
    ∀ l ∈ db'.balanceLogs, l.transferId < n := by
  rcases h with ⟨-, hsame⟩ | ⟨fee, log, -, hpost, -, -, hid, -⟩
  · rw [hsame.balanceLogs]
    exact hold
  · intro l hl
    rw [hpost.2] at hl
    rcases List.mem_append.mp hl with hl | hl
    · exact hold l hl
    · rw [List.mem_singleton.mp hl, hid]
      exact ht

/-- Logs name transfers that exist, so a fresh id has none. -/
theorem entries_fresh (h : ∀ l ∈ w.db.balanceLogs, l.transferId < w.db.nextId)
    (type : TransferLogType) : w.db.entries type w.db.nextId = [] := by
  simp only [TransferDb.entries, List.map_eq_nil_iff, List.filter_eq_nil_iff]
  intro l hl
  have := h l hl
  simp only [Bool.and_eq_true, beq_iff_eq, not_and]
  omega

theorem ids_map {transfers : List InstanceTransfer} {f : InstanceTransfer → InstanceTransfer}
    (hf : ∀ t, SameTransfer t (f t)) :
    (transfers.map f).map InstanceTransfer.id = transfers.map InstanceTransfer.id := by
  rw [List.map_map]
  exact List.map_congr_left fun t _ => (hf t).id

/-- Rows with one id are one row. -/
theorem eq_of_id {transfers : List InstanceTransfer} {t t' : InstanceTransfer}
    (hn : (transfers.map InstanceTransfer.id).Nodup) (ht : t ∈ transfers) (ht' : t' ∈ transfers)
    (h : t.id = t'.id) : t = t' :=
  List.inj_on_of_nodup_map hn ht ht' h

theorem inv_transferEffect (hinv : TransferInv w₀ w) (h : TransferEffect w.db db') :
    TransferInv w₀ { w with db := db' } := by
  cases h with
  | @rows f transfers nextId same refundedAt isOpen isReturned books =>
      have hrow : ∀ t' ∈ db'.transfers, ∃ t ∈ w.db.transfers, f t = t' := by
        intro t' ht'
        rw [transfers] at ht'
        exact List.mem_map.mp ht'
      refine ⟨?_, ?_, ?_, ?_, ?_, ?_, ?_, balances_kept (w := w) books hinv.balances⟩
      · simpa only [transfers, ids_map same] using hinv.ids
      · intro t' ht'
        obtain ⟨t, ht, rfl⟩ := hrow t' ht'
        rw [(same t).id, nextId]
        exact hinv.old t ht
      · rw [books.balanceLogs, nextId]
        exact hinv.logsOld
      · intro t' ht' r' hr' hopen hopen' hinst
        obtain ⟨t, ht, rfl⟩ := hrow t' ht'
        obtain ⟨r, hr, rfl⟩ := hrow r' hr'
        rw [(same t).instanceId, (same r).instanceId] at hinst
        rw [(same t).id, (same r).id]
        exact hinv.oneOpen t ht r hr (isOpen t hopen) (isOpen r hopen') hinst
      · intro t' ht'
        obtain ⟨t, ht, rfl⟩ := hrow t' ht'
        rw [(same t).fee]
        exact hinv.fee t ht
      · intro t' ht' hopen
        obtain ⟨t, ht, rfl⟩ := hrow t' ht'
        rw [refundedAt t]
        exact hinv.unrefunded t ht (isOpen t hopen)
      · intro t' ht' type
        obtain ⟨t, ht, rfl⟩ := hrow t' ht'
        rw [entries_kept books, (same t).id, booked_of_same (same t) (isReturned t ht) type]
        exact hinv.booked t ht type
  | @opened t transfers nextId id pending refundedAt alone fee books =>
      have hrow : ∀ r ∈ db'.transfers, r ∈ w.db.transfers ∨ r = t := by
        intro r hr
        rw [transfers] at hr
        exact (List.mem_append.mp hr).imp_right List.mem_singleton.mp
      have hfresh : ∀ r ∈ w.db.transfers, r.id ≠ t.id := by
        intro r hr
        have := hinv.old r hr
        omega
      refine ⟨?_, ?_, ?_, ?_, ?_, ?_, ?_, balances_books (w := w) books hinv.balances⟩
      · rw [transfers]
        exact Keyed.nodup_append_singleton hinv.ids hfresh
      · rw [transfers, nextId]
        exact Keyed.below_concat hinv.old (Nat.le_succ _) (id ▸ Nat.lt_succ_self _)
      · refine logsOld_books books (by rw [id, nextId]; exact Nat.lt_succ_self _) ?_
        intro l hl
        rw [nextId]
        exact (hinv.logsOld l hl).trans (Nat.lt_succ_self _)
      · intro r hr r' hr' hopen hopen' hinst
        rcases hrow r hr with hr | rfl
        · rcases hrow r' hr' with hr' | rfl
          · exact hinv.oneOpen r hr r' hr' hopen hopen' hinst
          · exact absurd hinst (alone r hr hopen)
        · rcases hrow r' hr' with hr' | rfl
          · exact absurd hinst.symm (alone r' hr' hopen')
          · rfl
      · intro r hr
        rcases hrow r hr with hr | rfl
        · exact hinv.fee r hr
        · exact fee
      · intro r hr hopen
        rcases hrow r hr with hr | rfl
        · exact hinv.unrefunded r hr hopen
        · exact refundedAt
      · intro r hr type
        rw [entries_books books]
        rcases hrow r hr with hr | rfl
        · rw [if_neg fun h => hfresh r hr h.2.symm, List.append_nil]
          exact hinv.booked r hr type
        · rw [id, entries_fresh hinv.logsOld, List.nil_append]
          cases type with
          | transferFee => simp [InstanceTransfer.booked]
          | transferRefund =>
              simp [InstanceTransfer.booked, isReturned_eq_false (isOpen_of_pending pending)]
  | @returned t f transfers nextId mem pending same others closed books =>
      have hrow : ∀ r' ∈ db'.transfers, ∃ r ∈ w.db.transfers, f r = r' := by
        intro r' hr'
        rw [transfers] at hr'
        exact List.mem_map.mp hr'
      -- an open row of the new table is another row, and unchanged
      have hother : ∀ r ∈ w.db.transfers, (f r).isOpen = true → r.id ≠ t.id := by
        intro r hr hopen hid
        obtain rfl := eq_of_id hinv.ids hr mem hid
        rw [not_isOpen_of_returned closed] at hopen
        cases hopen
      refine ⟨?_, ?_, ?_, ?_, ?_, ?_, ?_, balances_books (w := w) books hinv.balances⟩
      · simpa only [transfers, ids_map same] using hinv.ids
      · intro r' hr'
        obtain ⟨r, hr, rfl⟩ := hrow r' hr'
        rw [(same r).id, nextId]
        exact hinv.old r hr
      · rw [nextId]
        exact logsOld_books books (hinv.old t mem) hinv.logsOld
      · intro r' hr' s' hs' hopen hopen' hinst
        obtain ⟨r, hr, rfl⟩ := hrow r' hr'
        obtain ⟨s, hs, rfl⟩ := hrow s' hs'
        have hfr := others r (hother r hr hopen)
        have hfs := others s (hother s hs hopen')
        rw [hfr] at hopen hinst ⊢
        rw [hfs] at hopen' hinst ⊢
        exact hinv.oneOpen r hr s hs hopen hopen' hinst
      · intro r' hr'
        obtain ⟨r, hr, rfl⟩ := hrow r' hr'
        rw [(same r).fee]
        exact hinv.fee r hr
      · intro r' hr' hopen
        obtain ⟨r, hr, rfl⟩ := hrow r' hr'
        have hfr := others r (hother r hr hopen)
        rw [hfr] at hopen ⊢
        exact hinv.unrefunded r hr hopen
      · intro r' hr' type
        obtain ⟨r, hr, rfl⟩ := hrow r' hr'
        rw [entries_books books, (same r).id, hinv.booked r hr type]
        by_cases hid : r.id = t.id
        · obtain rfl := eq_of_id hinv.ids hr mem hid
          cases type with
          | transferFee => simp [InstanceTransfer.booked, (same r).feeEntry]
          | transferRefund =>
              simp [InstanceTransfer.booked, (same r).feeEntry, closed,
                isReturned_eq_false (isOpen_of_pending pending)]
        · rw [if_neg fun h => hid h.2.symm, List.append_nil, others r hid]

theorem commit_eq_some {r : Except String TransferDb} (h : w.commit r = some w') :
    ∃ db, r = .ok db ∧ w' = { w with db } := by
  cases r with
  | error e => cases h
  | ok db => exact ⟨db, rfl, (Option.some.inj h).symm⟩

theorem inv_addBalance (hinv : TransferInv w₀ w) {u : ℕ} {amount : Units}
    (hs : transferStep w (.addBalance u amount) = some w') : TransferInv w₀ w' := by
  cases hs
  refine ⟨hinv.ids, hinv.old, hinv.logsOld, hinv.oneOpen, hinv.fee, hinv.unrefunded,
    hinv.booked, ?_⟩
  intro userId
  by_cases he : userId = u
  · subst he
    simp only [Function.update_self, hinv.balances userId, Option.map_map]
    congr 1
    funext b
    simp only [Function.comp_apply, TransferDb.moved]
    ring
  · simp only [Function.update_of_ne he]
    exact hinv.balances userId

theorem inv_transferStep {e : TransferEvent} (hinv : TransferInv w₀ w) (hok : CancelsNoFee w e)
    (hs : transferStep w e = some w') : TransferInv w₀ w' := by
  cases e with
  | create d =>
      obtain ⟨db, hdb, rfl⟩ := commit_eq_some hs
      exact inv_transferEffect hinv (createTransferWithFee_effect hdb)
  | claim d =>
      obtain ⟨db, hdb, rfl⟩ := commit_eq_some hs
      exact inv_transferEffect hinv (claimTransferTransaction_effect hdb)
  | markPhase k token phase =>
      cases hs
      exact inv_transferEffect hinv (markTransferPhase_effect k token phase)
  | rollback k token =>
      cases hs
      exact inv_transferEffect hinv (rollbackProcessingTransfer_effect k token)
  | cleanupTimeout now =>
      cases hs
      exact inv_transferEffect hinv (cleanupTimeoutTransfers_effect now)
  | settle k actor outcome now =>
      obtain ⟨db, hdb, rfl⟩ := commit_eq_some hs
      cases hsettle : settleTransferWithRefund w.db k actor outcome now with
      | error e =>
          rw [hsettle] at hdb
          cases hdb
      | ok result =>
          rw [hsettle] at hdb
          cases hdb
          cases result with
          | none => exact hinv
          | some db =>
              exact inv_transferEffect hinv
                (settleTransferWithRefund_effect hsettle hinv.fee hinv.unrefunded)
  | execute d now =>
      obtain ⟨db, hdb, rfl⟩ := commit_eq_some hs
      exact inv_transferEffect hinv (executeTransferTransaction_spec hdb).1
  | cancelPending i now =>
      cases hs
      exact inv_transferEffect hinv (cancelPendingTransfers_effect hok)
  | addBalance u amount => exact inv_addBalance hinv hs
  | editInstance _ _ _ _ _ _ =>
      cases hs
      exact inv_transferEffect hinv (effect_unchanged rfl rfl ⟨rfl, rfl⟩)
  | setTasks _ _ =>
      cases hs
      exact inv_transferEffect hinv (effect_unchanged rfl rfl ⟨rfl, rfl⟩)
  | attach _ _ =>
      cases hs
      exact inv_transferEffect hinv (effect_unchanged rfl rfl ⟨rfl, rfl⟩)

/-- A list without duplicate ids in which all ids are equal has at most one element. -/
theorem length_le_one_of_ids {transfers : List InstanceTransfer}
    (hn : (transfers.map InstanceTransfer.id).Nodup)
    (h : ∀ t ∈ transfers, ∀ t' ∈ transfers, t.id = t'.id) : transfers.length ≤ 1 := by
  match transfers, hn, h with
  | [], _, _ => exact Nat.zero_le _
  | [_], _, _ => exact le_rfl
  | t :: t' :: rest, hn, h =>
      have heq := h t (by simp) t' (by simp)
      simp [heq] at hn

theorem transfersSafe_of_inv (hinv : TransferInv w₀ w) : TransfersSafe w₀ w where
  oneOpen instanceId := by
    refine length_le_one_of_ids (hinv.ids.sublist (List.Sublist.map _ List.filter_sublist)) ?_
    intro t ht t' ht'
    simp only [TransferDb.openTransfers, List.mem_filter, Bool.and_eq_true, beq_iff_eq] at ht ht'
    exact hinv.oneOpen t ht.1 t' ht'.1 ht.2.2 ht'.2.2 (ht.2.1.trans ht'.2.1.symm)
  debited t ht := hinv.booked t ht .transferFee
  refunded t ht := by
    rw [hinv.booked t ht .transferRefund]
    simp [InstanceTransfer.booked, InstanceTransfer.isReturned]
  balances := hinv.balances

/-! ## Owners -/

theorem instances_createTransferWithFee {db : TransferDb} {d : CreateTransfer}
    (h : createTransferWithFee db d = .ok db') : db'.instances = db.instances := by
  unfold createTransferWithFee debitTransferFee at h
  split at h
  · cases h
  split at h
  · cases h
  dsimp only at h
  split at h
  · split at h
    · cases h
    split at h
    · cases h
    cases h
    rfl
  · cases h
    rfl

theorem instances_claimTransferTransaction {db : TransferDb} {d : ClaimTransfer}
    (h : claimTransferTransaction db d = .ok db') : db'.instances = db.instances := by
  unfold claimTransferTransaction at h
  split at h
  · cases h
  split at h
  · cases h
  split at h
  · cases h
  dsimp only at h
  split at h
  · cases h
  split at h
  · cases h
  cases h
  rfl

theorem instances_settleTransferWithRefund {db : TransferDb} {k actor : ℕ}
    {outcome : TransferOutcome} {now : Time}
    (h : settleTransferWithRefund db k actor outcome now = .ok (some db')) :
    db'.instances = db.instances := by
  unfold settleTransferWithRefund refundFee at h
  dsimp only at h
  split at h
  · cases h
  split at h
  · cases h
  rename_i refunded hrefund
  split at h
  · cases h
  cases h
  split at hrefund
  · cases hrefund
    rfl
  split at hrefund
  · split at hrefund
    · cases hrefund
    cases hrefund
    rfl
  · cases hrefund
    rfl

/-- A step that is no execution leaves the owner of every instance. -/
theorem owner_of_step {e : TransferEvent} (hs : transferStep w e = some w')
    (he : ∀ d now, e ≠ .execute d now) (i : ℕ) :
    (w'.db.instances i).map (·.userId) = (w.db.instances i).map (·.userId) := by
  cases e with
  | execute d now => exact absurd rfl (he d now)
  | create d =>
      obtain ⟨db, hdb, rfl⟩ := commit_eq_some hs
      rw [instances_createTransferWithFee hdb]
  | claim d =>
      obtain ⟨db, hdb, rfl⟩ := commit_eq_some hs
      rw [instances_claimTransferTransaction hdb]
  | settle k actor outcome now =>
      obtain ⟨db, hdb, rfl⟩ := commit_eq_some hs
      cases hsettle : settleTransferWithRefund w.db k actor outcome now with
      | error e =>
          rw [hsettle] at hdb
          cases hdb
      | ok result =>
          rw [hsettle] at hdb
          cases hdb
          cases result with
          | none => rfl
          | some db =>
              have := instances_settleTransferWithRefund hsettle
              simp [this]
  | editInstance k name incusId status displayOrder version =>
      cases hs
      by_cases hk : i = k
      · subst hk
        simp [Function.comp_def]
      · simp [Function.update_of_ne hk]
  | _ => cases hs; rfl

theorem handsOverByClaim_of_step {e : TransferEvent} (hs : transferStep w e = some w') :
    HandsOverByClaim w e w' := by
  intro i inst inst' hinst hinst' hne
  by_cases he : ∃ d now, e = .execute d now
  · obtain ⟨d, now, rfl⟩ := he
    obtain ⟨db, hdb, rfl⟩ := commit_eq_some hs
    obtain ⟨-, t, ht, hexec, found, hfound, hmatches, hinstances⟩ :=
      executeTransferTransaction_spec hdb
    simp only [hinstances] at hinst'
    by_cases hi : i = d.instanceId
    · subst hi
      obtain rfl := Option.some.inj (hinst.symm.trans hfound)
      simp only [Function.update_self, Option.some.injEq] at hinst'
      simp only [InstanceTransfer.executedBy, InstanceTransfer.heldBy, Bool.and_eq_true,
        beq_iff_eq] at hexec
      simp only [TransferInstance.matches, Bool.and_eq_true, beq_iff_eq] at hmatches
      obtain ⟨⟨⟨⟨⟨⟨⟨⟨hid, hstatus⟩, htoken⟩, hinstance⟩, hfrom⟩, hto⟩, hold⟩, -⟩, hversion⟩ := hexec
      obtain ⟨⟨howner, hincus⟩, hmversion⟩ := hmatches
      refine ⟨d, now, rfl, rfl, hmversion, hincus, t, ht, hid, hstatus, htoken, hinstance, ?_, ?_,
        howner.trans hfrom.symm, ?_⟩
      · rw [hversion, hmversion]
      · rw [hold, hincus]
      · rw [← hinst', hto]
        rfl
    · rw [Function.update_of_ne hi, hinst] at hinst'
      exact absurd (Option.some.inj hinst' ▸ rfl) hne
  · have howner := owner_of_step hs (fun d now hd => he ⟨d, now, hd⟩) i
    rw [hinst, hinst'] at howner
    exact absurd (Option.some.inj howner) hne

/-- In every run in which no deletion cancels a pending transfer that has a fee,
transfers are safe in every state, and every step hands instances over by claim
only. -/
theorem transfers_safe (hstart : w₀.TransferStart)
    (hrun : Machine.Reach transferStep CancelsNoFee w₀ w) :
    TransfersSafe w₀ w ∧ ∀ e w', transferStep w e = some w' → HandsOverByClaim w e w' :=
  ⟨transfersSafe_of_inv (hrun.invariant (inv_transferStart hstart) inv_transferStep),
    fun _ _ => handsOverByClaim_of_step⟩

end Invariant

/-! ## Two runs -/

/-- An instance of user 1, who has ten yuan. -/
def transferWorld : TransferWorld :=
  { db :=
      { instances := fun i =>
          if i = 41 then
            some { userId := 1, name := "web", incusId := "u1-web", status := .stopped }
          else none
        transfers := []
        balance := fun u => if u = 1 then some (toUnits 1000) else none
        balanceLogs := []
        feeRecords := []
        taskCount := fun _ => 0
        attached := fun _ => {}
        nextId := 1 } }

theorem transferWorld_start : transferWorld.TransferStart := ⟨rfl, rfl, rfl⟩

/-- User 1 offers the instance to user 2, at a fee of two yuan. -/
def offer : CreateTransfer :=
  { instanceId := 41, fromUserId := 1, toUserId := 2, fee := 200, instanceName := "web" }

/-- Opened, claimed, rolled back and rejected: the fee is back. -/
theorem transfers_safe_rejected :
    ∃ w, Machine.Reach transferStep CancelsNoFee transferWorld w ∧
      w.db.transfers.map (·.status) = [.rejected] ∧ w.db.balance 1 = some (toUnits 1000) ∧
      TransfersSafe transferWorld w := by
  have hexec : (Machine.exec transferStep transferWorld
      [.create offer,
        .claim
          { transferId := 1, instanceId := 41, actorUserId := 2, actorRole := .receiver
            claimToken := "a", newIncusId := "u2-web", leaseUntil := 1800000 },
        .rollback 1 "a", .settle 1 2 (.rejected none) 5000]).map
      (fun w => (w.db.transfers.map (·.status), w.db.balance 1))
      = some ([.rejected], some (toUnits 1000)) := by decide +kernel
  obtain ⟨w, hw, hcolumns⟩ := Option.map_eq_some_iff.mp hexec
  simp only [Prod.mk.injEq] at hcolumns
  have hrun : Machine.Reach transferStep CancelsNoFee transferWorld w := by
    refine Machine.reach_of_exec_of (P := fun _ => True) hw trivial ?_ fun _ _ _ _ _ _ => trivial
    intro s e he _
    simp only [List.mem_cons, List.not_mem_nil, or_false] at he
    rcases he with rfl | rfl | rfl | rfl <;> trivial
  exact ⟨w, hrun, hcolumns.1, hcolumns.2, (transfers_safe transferWorld_start hrun).1⟩

/-- The instance is deleted while the transfer is pending: the transfer ends
cancelled, and the two yuan are gone. -/
theorem cancelled_by_deletion_keeps_fee :
    ∃ w, Machine.Reach transferStep Machine.free transferWorld w ∧
      w.db.transfers.map (·.status) = [.cancelled] ∧ w.db.balance 1 = some (toUnits 800) ∧
      ¬ TransfersSafe transferWorld w := by
  have hrows : (Machine.exec transferStep transferWorld
      [.create offer, .cancelPending 41 5000]).map
      (fun w => w.db.transfers.map fun t => (t.status, t.id, t.feeEntry))
      = some [(.cancelled, 1, [(1, toUnits 200)])] := by decide +kernel
  have hbooks : (Machine.exec transferStep transferWorld
      [.create offer, .cancelPending 41 5000]).map
      (fun w => (w.db.balance 1, w.db.entries .transferRefund 1))
      = some (some (toUnits 800), []) := by decide +kernel
  obtain ⟨w, hw, htransfers⟩ := Option.map_eq_some_iff.mp hrows
  rw [hw, Option.map_some, Option.some.injEq, Prod.mk.injEq] at hbooks
  obtain ⟨hbalance, hrefund⟩ := hbooks
  refine ⟨w, Machine.reach_of_exec hw, ?_, hbalance, ?_⟩
  · simpa [Function.comp_def] using congrArg (List.map Prod.fst) htransfers
  · intro hsafe
    have hmem : (TransferStatus.cancelled, 1, [(1, toUnits 200)])
        ∈ w.db.transfers.map fun t => (t.status, t.id, t.feeEntry) := by
      rw [htransfers]
      exact List.mem_singleton.mpr rfl
    obtain ⟨t, ht, hrow⟩ := List.mem_map.mp hmem
    simp only [Prod.mk.injEq] at hrow
    have hrefunded := hsafe.refunded t ht
    rw [if_pos (.inr hrow.1), hrow.2.1, hrow.2.2, hrefund] at hrefunded
    cases hrefunded

end Incudal
