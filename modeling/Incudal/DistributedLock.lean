/-
# `DistributedLock` — the lock in the table `distributed_locks`

A lock is one row, unique by `lock_key`.  `acquireLock` inserts it or, in the
same statement, takes over the row that is there if it has expired or belongs
to the same owner; `extendLock` moves the expiry of an unexpired row of its
owner; `releaseLock` deletes the row of its owner; `cleanupExpiredLocks`
deletes what has expired.  Every statement is atomic, but it carries clock
readings taken before it was sent, so any number of other statements and any
amount of time may lie between the reading and the statement.

An owner knows its lease from what it has been granted: `lease` is read off the
history of grants, not off the table.  `locks_exclusive` says that the two
agree as long as it matters: unexpired leases on one key belong to one owner.
-/
import Incudal.Basic
import Incudal.Lib.Machine
import Incudal.Lib.Keyed

namespace Incudal

/-- A row of `distributed_locks`. -/
structure DistributedLock where
  id : ℕ
  lockKey : String
  ownerId : String
  acquiredAt : Time
  expiresAt : Time
deriving DecidableEq, Repr

/-- A call of `acquireLock` that has not returned. -/
structure AcquireCall where
  lockKey : String
  ownerId : String
  expireMs : ℤ
  waitTimeoutMs : ℤ
  startTime : Time
deriving DecidableEq, Repr

/-- A call of `extendLock` that has read the clock for its filter. -/
structure ExtendCall where
  lockKey : String
  ownerId : String
  extendMs : ℤ
  now : Time
deriving DecidableEq, Repr

/-- The statements of the module, with the clock readings they carry. -/
inductive LockStatement
  | acquire (call : AcquireCall) (now expiresAt : Time)
  | release (lockKey ownerId : String)
  | extend (lockKey ownerId : String) (now expiresAt : Time)
  | cleanup (now : Time)
deriving DecidableEq, Repr

/-- The reading that a statement compares expiries with. -/
def LockStatement.readAt : LockStatement → Option Time
  | .acquire _ now _ => some now
  | .release _ _ => none
  | .extend _ _ now _ => some now
  | .cleanup now => some now

/-! ## The statements on the table -/

/-- `INSERT … ON CONFLICT ("lock_key") DO UPDATE … WHERE …`: the table after it,
or nothing if it returns no row. -/
def tryAcquire (locks : List DistributedLock) (id : ℕ) (lockKey ownerId : String)
    (now expiresAt : Time) : Option (List DistributedLock) :=
  match Keyed.lookup DistributedLock.lockKey lockKey locks with
  | none => some (locks ++ [{ id, lockKey, ownerId, acquiredAt := now, expiresAt }])
  | some lock =>
      if lock.expiresAt ≤ now ∨ lock.ownerId = ownerId then
        some (Keyed.modify DistributedLock.lockKey lockKey
          (fun r => { r with ownerId, acquiredAt := now, expiresAt }) locks)
      else none

namespace DistributedLock

/-- The filter of `releaseLock`. -/
def ownedBy (lockKey ownerId : String) (lock : DistributedLock) : Bool :=
  lock.lockKey == lockKey && lock.ownerId == ownerId

/-- The filter of `extendLock`. -/
def extendable (lockKey ownerId : String) (now : Time) (lock : DistributedLock) : Bool :=
  lock.ownedBy lockKey ownerId && decide (now < lock.expiresAt)

/-- The filter of `cleanupExpiredLocks`. -/
def expiredAt (now : Time) (lock : DistributedLock) : Bool := decide (lock.expiresAt < now)

end DistributedLock

/-- `releaseLock`: the table after it and the number of rows deleted. -/
def releaseRows (locks : List DistributedLock) (lockKey ownerId : String) :
    List DistributedLock × ℕ :=
  (locks.filter fun r => !r.ownedBy lockKey ownerId, locks.countP (·.ownedBy lockKey ownerId))

/-- `extendLock`: the table after it and the number of rows updated. -/
def extendRows (locks : List DistributedLock) (lockKey ownerId : String) (now expiresAt : Time) :
    List DistributedLock × ℕ :=
  (locks.map fun r => if r.extendable lockKey ownerId now then { r with expiresAt } else r,
    locks.countP (·.extendable lockKey ownerId now))

/-- `cleanupExpiredLocks`: the table after it. -/
def cleanupRows (locks : List DistributedLock) (now : Time) : List DistributedLock :=
  locks.filter fun r => !r.expiredAt now

/-! ## What the owners know -/

inductive LockGrant
  | acquired | extended | released
deriving DecidableEq, Repr

/-- A call that has succeeded, and the lease its owner has by it. -/
structure LockEntry where
  grant : LockGrant
  lockKey : String
  ownerId : String
  lease : Option Time
deriving DecidableEq, Repr

/-- The lease that an owner has by its latest successful call; the history is
latest first. -/
def lease (lockKey ownerId : String) : List LockEntry → Option Time
  | [] => none
  | e :: history =>
      if e.lockKey = lockKey ∧ e.ownerId = ownerId then e.lease else lease lockKey ownerId history

/-- The owner that has acquired the key last. -/
def lastAcquirer (lockKey : String) : List LockEntry → Option String
  | [] => none
  | e :: history =>
      if e.lockKey = lockKey ∧ e.grant = .acquired then some e.ownerId
      else lastAcquirer lockKey history

/-! ## Runs -/

structure LockWorld where
  now : Time
  nextId : ℕ := 1
  locks : List DistributedLock := []
  /-- calls of `acquireLock` between two attempts -/
  acquiring : List AcquireCall := []
  extending : List ExtendCall := []
  /-- statements sent and not yet executed -/
  statements : List LockStatement := []
  history : List LockEntry := []
deriving DecidableEq, Repr

inductive LockEvent
  | tick (now : Time)
  | acquireLock (lockKey ownerId : String) (expireMs waitTimeoutMs : ℤ)
  | attempt (call : AcquireCall)
  | timeout (call : AcquireCall)
  | releaseLock (lockKey ownerId : String)
  | extendLock (lockKey ownerId : String) (extendMs : ℤ)
  | sendExtend (call : ExtendCall)
  | cleanupExpiredLocks
  | execute (statement : LockStatement)
  | fail (statement : LockStatement) (writeConflict : Bool)
deriving DecidableEq, Repr

namespace LockWorld

variable (w : LockWorld)

def send (statement : LockStatement) : LockWorld :=
  { w with statements := statement :: w.statements }

/-- The effect of a statement on the table and what its caller learns. -/
def run : LockStatement → LockWorld
  | .acquire call now expiresAt =>
      match tryAcquire w.locks w.nextId call.lockKey call.ownerId now expiresAt with
      | some locks =>
          { w with
            locks
            nextId := w.nextId + 1
            history := ⟨.acquired, call.lockKey, call.ownerId, some expiresAt⟩ :: w.history }
      | none => { w with nextId := w.nextId + 1, acquiring := call :: w.acquiring }
  | .release lockKey ownerId =>
      let result := releaseRows w.locks lockKey ownerId
      { w with
        locks := result.1
        history :=
          if 0 < result.2 then ⟨.released, lockKey, ownerId, none⟩ :: w.history else w.history }
  | .extend lockKey ownerId now expiresAt =>
      let result := extendRows w.locks lockKey ownerId now expiresAt
      { w with
        locks := result.1
        history :=
          if 0 < result.2 then ⟨.extended, lockKey, ownerId, some expiresAt⟩ :: w.history
          else w.history }
  | .cleanup now => { w with locks := cleanupRows w.locks now }

end LockWorld

def lockStep (w : LockWorld) : LockEvent → Option LockWorld
  | .tick now => if w.now ≤ now then some { w with now } else none
  | .acquireLock lockKey ownerId expireMs waitTimeoutMs =>
      some { w with
        acquiring := ⟨lockKey, ownerId, expireMs, waitTimeoutMs, w.now⟩ :: w.acquiring }
  | .attempt call =>
      if call ∈ w.acquiring ∧ w.now - call.startTime < call.waitTimeoutMs then
        some ({ w with acquiring := w.acquiring.erase call }.send
          (.acquire call w.now (w.now + call.expireMs)))
      else none
  | .timeout call =>
      if call ∈ w.acquiring ∧ call.waitTimeoutMs ≤ w.now - call.startTime then
        some { w with acquiring := w.acquiring.erase call }
      else none
  | .releaseLock lockKey ownerId => some (w.send (.release lockKey ownerId))
  | .extendLock lockKey ownerId extendMs =>
      some { w with extending := ⟨lockKey, ownerId, extendMs, w.now⟩ :: w.extending }
  | .sendExtend call =>
      if call ∈ w.extending then
        some ({ w with extending := w.extending.erase call }.send
          (.extend call.lockKey call.ownerId call.now (w.now + call.extendMs)))
      else none
  | .cleanupExpiredLocks => some (w.send (.cleanup w.now))
  | .execute statement =>
      if statement ∈ w.statements then
        some ({ w with statements := w.statements.erase statement }.run statement)
      else none
  | .fail statement writeConflict =>
      -- a write conflict sends an acquisition back to its loop, any other error ends the call
      if statement ∈ w.statements then
        some { w with
          statements := w.statements.erase statement
          acquiring := match statement, writeConflict with
            | .acquire call _ _, true => call :: w.acquiring
            | _, _ => w.acquiring }
      else none

/-- The owner has a lease on the key that has not expired. -/
def LockWorld.Holds (w : LockWorld) (lockKey ownerId : String) : Prop :=
  ∃ expiresAt, lease lockKey ownerId w.history = some expiresAt ∧ w.now < expiresAt

/-- No other owner has acquired the key since the owner acquired it last. -/
def AcquiredSince (lockKey ownerId : String) (history : List LockEntry) : Prop :=
  ∃ since e earlier, history = since ++ e :: earlier ∧ e.grant = .acquired ∧
    e.lockKey = lockKey ∧ e.ownerId = ownerId ∧
    ∀ e' ∈ since, e'.grant = .acquired → e'.lockKey = lockKey → e'.ownerId = ownerId

/-! ## Exclusion -/

section Exclusion

variable {w w' : LockWorld} {s : LockStatement} {k k' o o' : String}

theorem acquiredSince_of_lastAcquirer {history : List LockEntry}
    (h : lastAcquirer k history = some o) : AcquiredSince k o history := by
  induction history with
  | nil => simp [lastAcquirer] at h
  | cons e history ih =>
      simp only [lastAcquirer] at h
      split at h
      · rename_i he
        exact ⟨[], e, history, rfl, he.2, he.1, Option.some.inj h, by simp⟩
      · rename_i he
        obtain ⟨since, e₀, earlier, rfl, hg, hk, ho, hall⟩ := ih h
        refine ⟨e :: since, e₀, earlier, rfl, hg, hk, ho, fun e' he' hg' hk' => ?_⟩
        rcases List.mem_cons.mp he' with rfl | hmem
        · exact absurd ⟨hk', hg'⟩ he
        · exact hall e' hmem hg' hk'

/-! ### The rows that a statement finds -/

variable {locks locks' : List DistributedLock} {id : ℕ} {now e : Time}

/-- The row of the key after a statement that kept at most some of the rows. -/
theorem lookup_kept {p : DistributedLock → Bool} (hn : (locks.map DistributedLock.lockKey).Nodup)
    {lock : DistributedLock}
    (h : Keyed.lookup DistributedLock.lockKey k (locks.filter p) = some lock) :
    Keyed.lookup DistributedLock.lockKey k locks = some lock ∧ p lock = true := by
  rw [Keyed.lookup_filter hn] at h
  exact Option.filter_eq_some_iff.mp h

theorem lookup_keep {p : DistributedLock → Bool} (hn : (locks.map DistributedLock.lockKey).Nodup)
    {lock : DistributedLock} (h : Keyed.lookup DistributedLock.lockKey k locks = some lock)
    (hp : p lock = true) :
    Keyed.lookup DistributedLock.lockKey k (locks.filter p) = some lock := by
  rw [Keyed.lookup_filter hn]
  exact Option.filter_eq_some_iff.mpr ⟨h, hp⟩

/-- The key is the owner's by the latest statement, and the rows of other keys are as before. -/
structure Acquires (locks locks' : List DistributedLock) (k o : String) (now e : Time) : Prop where
  keys : (locks'.map DistributedLock.lockKey).Nodup
  free : ∀ lock, Keyed.lookup DistributedLock.lockKey k locks = some lock →
    lock.expiresAt ≤ now ∨ lock.ownerId = o
  row : ∃ lock, Keyed.lookup DistributedLock.lockKey k locks' = some lock ∧ lock.ownerId = o ∧
    lock.expiresAt = e
  others : ∀ k', k' ≠ k → Keyed.lookup DistributedLock.lockKey k' locks' =
    Keyed.lookup DistributedLock.lockKey k' locks

theorem tryAcquire_acquires (hn : (locks.map DistributedLock.lockKey).Nodup)
    (h : tryAcquire locks id k o now e = some locks') : Acquires locks locks' k o now e := by
  cases hl : Keyed.lookup DistributedLock.lockKey k locks with
  | none =>
      simp only [tryAcquire, hl, Option.some.injEq] at h
      subst h
      have hfresh := Keyed.lookup_eq_none_iff.mp hl
      refine ⟨?_, fun lock hlock => by simp [hl] at hlock, ?_, fun k' hk' => ?_⟩
      · exact Keyed.nodup_append_singleton hn hfresh
      · exact ⟨⟨id, k, o, now, e⟩,
          by rw [Keyed.lookup_append_singleton hfresh, if_pos rfl], rfl, rfl⟩
      · rw [Keyed.lookup_append_singleton hfresh, if_neg (Ne.symm hk')]
  | some lock =>
      simp only [tryAcquire, hl] at h
      split at h
      · rename_i hfree
        obtain rfl := Option.some.inj h
        refine ⟨?_, fun lock' hlock => ?_, ?_, fun k' hk' => ?_⟩
        · rwa [Keyed.map_key_modify]
          exact fun _ => rfl
        · obtain rfl := Option.some.inj (hl.symm.trans hlock)
          exact hfree
        · exact ⟨_, Keyed.lookup_modify_self (fun _ => rfl) hl, rfl, rfl⟩
        · exact Keyed.lookup_modify_of_ne (fun _ => rfl) hk'
      · cases h

theorem ownedBy_iff {lock : DistributedLock} :
    lock.ownedBy k o = true ↔ lock.lockKey = k ∧ lock.ownerId = o := by
  simp [DistributedLock.ownedBy]

theorem extendable_iff {lock : DistributedLock} :
    lock.extendable k o now = true ↔ lock.lockKey = k ∧ lock.ownerId = o ∧ now < lock.expiresAt := by
  simp [DistributedLock.extendable, ownedBy_iff, and_assoc]

/-- A statement that has touched a row has touched the row of its key. -/
theorem lookup_of_countP {p : DistributedLock → Bool}
    (hn : (locks.map DistributedLock.lockKey).Nodup)
    (hp : ∀ lock, p lock = true → lock.lockKey = k) (h : 0 < locks.countP p) :
    ∃ lock, Keyed.lookup DistributedLock.lockKey k locks = some lock ∧ p lock = true := by
  obtain ⟨lock, hmem, hlock⟩ := List.countP_pos_iff.mp h
  exact ⟨lock, hp lock hlock ▸ Keyed.lookup_of_mem hn hmem, hlock⟩

theorem countP_of_lookup {p : DistributedLock → Bool} {lock : DistributedLock}
    (h : Keyed.lookup DistributedLock.lockKey k locks = some lock) (hp : p lock = true) :
    0 < locks.countP p :=
  List.countP_pos_iff.mpr ⟨lock, (Keyed.mem_of_lookup h).1, hp⟩

theorem lookup_extendRows :
    Keyed.lookup DistributedLock.lockKey k (extendRows locks k' o now e).1 =
      (Keyed.lookup DistributedLock.lockKey k locks).map fun r =>
        if r.extendable k' o now then { r with expiresAt := e } else r := by
  refine Keyed.lookup_map fun r => ?_
  split <;> rfl

/-! ### The table and the history agree -/

/-- What the table says is what the owners were told, as long as they rely on it. -/
structure LockInv (w : LockWorld) : Prop where
  keys : (w.locks.map DistributedLock.lockKey).Nodup
  past : ∀ s ∈ w.statements, ∀ now, s.readAt = some now → now ≤ w.now
  begun : ∀ call ∈ w.extending, call.now ≤ w.now
  held : ∀ k o e, lease k o w.history = some e → w.now < e →
    ∃ lock, Keyed.lookup DistributedLock.lockKey k w.locks = some lock ∧ lock.ownerId = o ∧
      lock.expiresAt = e
  acquired : ∀ k lock, Keyed.lookup DistributedLock.lockKey k w.locks = some lock →
    lastAcquirer k w.history = some lock.ownerId

theorem lease_cons (e : LockEntry) (history : List LockEntry) :
    lease k o (e :: history) =
      if e.lockKey = k ∧ e.ownerId = o then e.lease else lease k o history := rfl

theorem lastAcquirer_cons_of_ne {e : LockEntry} {history : List LockEntry}
    (h : e.grant ≠ .acquired) : lastAcquirer k (e :: history) = lastAcquirer k history := by
  simp only [lastAcquirer]
  exact if_neg fun he => h he.2

theorem LockInv.run_acquire {call : AcquireCall} (hw : LockInv w) (hnow : now ≤ w.now) :
    LockInv (w.run (.acquire call now e)) := by
  simp only [LockWorld.run]
  cases ht : tryAcquire w.locks w.nextId call.lockKey call.ownerId now e with
  | none => exact ⟨hw.keys, hw.past, hw.begun, hw.held, hw.acquired⟩
  | some locks =>
      have hacq := tryAcquire_acquires hw.keys ht
      refine ⟨hacq.keys, hw.past, hw.begun, fun k o expiresAt hlease hlive => ?_,
        fun k lock hlock => ?_⟩
      · rw [lease_cons] at hlease
        by_cases hk : k = call.lockKey
        · subst hk
          split at hlease
          · rename_i howner
            obtain ⟨lock, hlock, ho, he⟩ := hacq.row
            exact ⟨lock, hlock, ho.trans howner.2, he.trans (Option.some.inj hlease)⟩
          · -- the unexpired lease of another owner keeps the statement from the row
            rename_i howner
            obtain ⟨lock, hlock, ho, he⟩ := hw.held _ _ _ hlease hlive
            rcases hacq.free lock hlock with hexp | hown
            · exact absurd (lt_of_lt_of_le hlive (he ▸ hexp.trans hnow)) (lt_irrefl _)
            · exact absurd ⟨rfl, hown.symm.trans ho⟩ howner
        · rw [if_neg fun h => hk h.1.symm] at hlease
          obtain ⟨lock, hlock, ho, he⟩ := hw.held _ _ _ hlease hlive
          exact ⟨lock, (hacq.others k hk).trans hlock, ho, he⟩
      · by_cases hk : k = call.lockKey
        · subst hk
          obtain ⟨lock', hlock', ho, -⟩ := hacq.row
          obtain rfl := Option.some.inj (hlock.symm.trans hlock')
          simp [lastAcquirer, ho]
        · have hold := hw.acquired k lock ((hacq.others k hk).symm.trans hlock)
          simpa [lastAcquirer, Ne.symm hk] using hold

theorem LockInv.run_release (hw : LockInv w) : LockInv (w.run (.release k o)) := by
  show LockInv { w with locks := _, history := _ }
  refine ⟨?_, hw.past, hw.begun, fun k' o' expiresAt hlease hlive => ?_, fun k' lock hlock => ?_⟩
  · exact hw.keys.sublist (List.filter_sublist.map _)
  · by_cases hsame : k = k' ∧ o = o'
    · obtain ⟨rfl, rfl⟩ := hsame
      split at hlease
      · simp [lease] at hlease
      · -- an unexpired lease has its row, and the row would have been counted
        rename_i hcount
        obtain ⟨lock, hlock, ho, -⟩ := hw.held _ _ _ hlease hlive
        refine absurd (countP_of_lookup hlock ?_) hcount
        exact ownedBy_iff.mpr ⟨(Keyed.mem_of_lookup hlock).2, ho⟩
    · have hold : lease k' o' w.history = some expiresAt := by
        split at hlease
        · rwa [lease_cons, if_neg hsame] at hlease
        · exact hlease
      obtain ⟨lock, hlock, ho, he⟩ := hw.held _ _ _ hold hlive
      refine ⟨lock, lookup_keep hw.keys hlock ?_, ho, he⟩
      rw [Bool.not_eq_true', Bool.eq_false_iff]
      intro hown
      obtain ⟨hk, ho'⟩ := ownedBy_iff.mp hown
      exact hsame ⟨hk.symm.trans (Keyed.mem_of_lookup hlock).2, ho'.symm.trans ho⟩
  · have hold := hw.acquired k' lock (lookup_kept hw.keys hlock).1
    split
    · exact (lastAcquirer_cons_of_ne (by simp)).trans hold
    · exact hold

theorem LockInv.run_extend (hw : LockInv w) (hnow : now ≤ w.now) :
    LockInv (w.run (.extend k o now e)) := by
  show LockInv { w with locks := _, history := _ }
  refine ⟨?_, hw.past, hw.begun, fun k' o' expiresAt hlease hlive => ?_, fun k' lock hlock => ?_⟩
  · have hkeys : (extendRows w.locks k o now e).1.map DistributedLock.lockKey =
        w.locks.map DistributedLock.lockKey := by
      simp only [extendRows, List.map_map]
      refine List.map_congr_left fun r _ => ?_
      simp only [Function.comp_apply]
      split <;> rfl
    exact hkeys ▸ hw.keys
  · by_cases hsame : k = k' ∧ o = o'
    · obtain ⟨rfl, rfl⟩ := hsame
      split at hlease
      · rename_i hcount
        rw [lease_cons, if_pos ⟨rfl, rfl⟩] at hlease
        obtain ⟨lock, hlock, hext⟩ :=
          lookup_of_countP hw.keys (fun _ h => (extendable_iff.mp h).1) hcount
        refine ⟨{ lock with expiresAt := e }, ?_, (extendable_iff.mp hext).2.1,
          Option.some.inj hlease⟩
        rw [lookup_extendRows, hlock]
        simp [hext]
      · rename_i hcount
        obtain ⟨lock, hlock, ho, he⟩ := hw.held _ _ _ hlease hlive
        refine absurd (countP_of_lookup hlock ?_) hcount
        exact extendable_iff.mpr
          ⟨(Keyed.mem_of_lookup hlock).2, ho, he ▸ lt_of_le_of_lt hnow hlive⟩
    · have hold : lease k' o' w.history = some expiresAt := by
        split at hlease
        · rwa [lease_cons, if_neg hsame] at hlease
        · exact hlease
      obtain ⟨lock, hlock, ho, he⟩ := hw.held _ _ _ hold hlive
      refine ⟨lock, ?_, ho, he⟩
      rw [lookup_extendRows, hlock, Option.map_some, if_neg]
      intro hext
      obtain ⟨hk, ho', -⟩ := extendable_iff.mp hext
      exact hsame ⟨hk.symm.trans (Keyed.mem_of_lookup hlock).2, ho'.symm.trans ho⟩
  · rw [lookup_extendRows] at hlock
    obtain ⟨lock₀, hlock₀, rfl⟩ := Option.map_eq_some_iff.mp hlock
    have howner : (if lock₀.extendable k o now = true then { lock₀ with expiresAt := e }
        else lock₀).ownerId = lock₀.ownerId := by split <;> rfl
    have hold := hw.acquired k' lock₀ hlock₀
    rw [howner]
    split
    · exact (lastAcquirer_cons_of_ne (by simp)).trans hold
    · exact hold

theorem LockInv.run_cleanup (hw : LockInv w) (hnow : now ≤ w.now) :
    LockInv (w.run (.cleanup now)) := by
  show LockInv { w with locks := _ }
  refine ⟨?_, hw.past, hw.begun, fun k o expiresAt hlease hlive => ?_, fun k lock hlock => ?_⟩
  · exact hw.keys.sublist (List.filter_sublist.map _)
  · obtain ⟨lock, hlock, ho, he⟩ := hw.held _ _ _ hlease hlive
    refine ⟨lock, lookup_keep hw.keys hlock ?_, ho, he⟩
    simp only [DistributedLock.expiredAt, Bool.not_eq_true', decide_eq_false_iff_not, not_lt]
    exact he ▸ hnow.trans hlive.le
  · exact hw.acquired k lock (lookup_kept hw.keys hlock).1

theorem LockInv.run (hw : LockInv w) (hs : ∀ now, s.readAt = some now → now ≤ w.now) :
    LockInv (w.run s) := by
  cases s with
  | acquire call now e => exact hw.run_acquire (hs now rfl)
  | release k o => exact hw.run_release
  | extend k o now e => exact hw.run_extend (hs now rfl)
  | cleanup now => exact hw.run_cleanup (hs now rfl)

theorem LockInv.send (hw : LockInv w) (hs : ∀ now, s.readAt = some now → now ≤ w.now) :
    LockInv (w.send s) := by
  refine ⟨hw.keys, fun s' hs' => ?_, hw.begun, hw.held, hw.acquired⟩
  rcases List.mem_cons.mp hs' with rfl | hs'
  · exact hs
  · exact hw.past s' hs'

theorem LockInv.forget (hw : LockInv w) : LockInv { w with statements := w.statements.erase s } :=
  ⟨hw.keys, fun s' hs' => hw.past s' (List.mem_of_mem_erase hs'), hw.begun, hw.held, hw.acquired⟩

/-- Calls of `acquireLock` between two attempts are not read by the invariant. -/
theorem LockInv.acquiring (hw : LockInv w) (acquiring : List AcquireCall) :
    LockInv { w with acquiring } :=
  ⟨hw.keys, hw.past, hw.begun, hw.held, hw.acquired⟩

theorem LockInv.tick (hw : LockInv w) {now : Time} (h : w.now ≤ now) : LockInv { w with now } :=
  ⟨hw.keys, fun s hs t ht => (hw.past s hs t ht).trans h,
    fun call hcall => (hw.begun call hcall).trans h,
    fun k o e hlease hlive => hw.held k o e hlease (lt_of_le_of_lt h hlive), hw.acquired⟩

theorem LockInv.step {event : LockEvent} (hw : LockInv w) (hs : lockStep w event = some w') :
    LockInv w' := by
  cases event with
  | tick now =>
      simp only [lockStep] at hs
      split at hs
      · rename_i hle
        obtain rfl := Option.some.inj hs
        exact hw.tick hle
      · cases hs
  | acquireLock lockKey ownerId expireMs waitTimeoutMs =>
      obtain rfl := Option.some.inj hs
      exact hw.acquiring _
  | attempt call =>
      simp only [lockStep] at hs
      split at hs
      · obtain rfl := Option.some.inj hs
        refine (hw.acquiring _).send fun now hnow => ?_
        exact (Option.some.inj hnow).symm.le
      · cases hs
  | timeout call =>
      simp only [lockStep] at hs
      split at hs
      · obtain rfl := Option.some.inj hs
        exact hw.acquiring _
      · cases hs
  | releaseLock lockKey ownerId =>
      obtain rfl := Option.some.inj hs
      exact hw.send fun now hnow => by simp [LockStatement.readAt] at hnow
  | extendLock lockKey ownerId extendMs =>
      obtain rfl := Option.some.inj hs
      refine ⟨hw.keys, hw.past, fun call hcall => ?_, hw.held, hw.acquired⟩
      rcases List.mem_cons.mp hcall with rfl | hcall
      · exact le_refl w.now
      · exact hw.begun call hcall
  | sendExtend call =>
      simp only [lockStep] at hs
      split at hs
      · rename_i hcall
        obtain rfl := Option.some.inj hs
        have hfewer : LockInv { w with extending := w.extending.erase call } :=
          ⟨hw.keys, hw.past, fun c hc => hw.begun c (List.mem_of_mem_erase hc), hw.held,
            hw.acquired⟩
        refine hfewer.send fun now hnow => ?_
        exact Option.some.inj hnow ▸ hw.begun call hcall
      · cases hs
  | cleanupExpiredLocks =>
      obtain rfl := Option.some.inj hs
      exact hw.send fun now hnow => (Option.some.inj hnow).symm.le
  | execute statement =>
      simp only [lockStep] at hs
      split at hs
      · rename_i hmem
        obtain rfl := Option.some.inj hs
        exact hw.forget.run (hw.past statement hmem)
      · cases hs
  | fail statement writeConflict =>
      simp only [lockStep] at hs
      split at hs
      · obtain rfl := Option.some.inj hs
        exact hw.forget.acquiring _
      · cases hs

theorem LockInv.reach {now₀ : Time} (h : Machine.Reach lockStep Machine.free { now := now₀ } w) :
    LockInv w := by
  refine h.invariant (P := LockInv) ?_ fun hw _ hs => hw.step hs
  exact ⟨List.nodup_nil, by simp, by simp, by simp [lease], by simp [Keyed.lookup]⟩

/-! ### What a release or an extension leaves alone -/

theorem releaseRows_other {lock : DistributedLock}
    (hn : (locks.map DistributedLock.lockKey).Nodup)
    (h : Keyed.lookup DistributedLock.lockKey k' locks = some lock) (ho : lock.ownerId ≠ o) :
    Keyed.lookup DistributedLock.lockKey k' (releaseRows locks k o).1 = some lock := by
  refine lookup_keep hn h ?_
  rw [Bool.not_eq_true', Bool.eq_false_iff]
  exact fun hown => ho (ownedBy_iff.mp hown).2

theorem extendRows_other {lock : DistributedLock}
    (h : Keyed.lookup DistributedLock.lockKey k' locks = some lock) (ho : lock.ownerId ≠ o) :
    Keyed.lookup DistributedLock.lockKey k' (extendRows locks k o now e).1 = some lock := by
  rw [lookup_extendRows, h, Option.map_some, if_neg]
  exact fun hext => ho (extendable_iff.mp hext).2.1

/-- The statement is a release or an extension by the owner. -/
def LockStatement.OfOwner (ownerId : String) : LockStatement → Prop
  | .release _ o => o = ownerId
  | .extend _ o _ _ => o = ownerId
  | .acquire _ _ _ => False
  | .cleanup _ => False

theorem run_others (hn : (w.locks.map DistributedLock.lockKey).Nodup) (hs : s.OfOwner o) :
    (∀ k lock, Keyed.lookup DistributedLock.lockKey k w.locks = some lock → lock.ownerId ≠ o →
      Keyed.lookup DistributedLock.lockKey k (w.run s).locks = some lock) ∧
    (∀ k o', o' ≠ o → ((w.run s).Holds k o' ↔ w.Holds k o')) := by
  -- the history grows by an entry of the owner or not at all
  have hlease : ∀ {k o' : String} {entry : LockEntry} {c : Prop} [Decidable c],
      entry.ownerId ≠ o' →
      lease k o' (if c then entry :: w.history else w.history) = lease k o' w.history := by
    intro k o' entry c _ hne
    split
    · rw [lease_cons, if_neg fun h => hne h.2]
    · rfl
  cases s with
  | release k₀ o₀ =>
      obtain rfl : o₀ = o := hs
      refine ⟨fun k lock hlock ho => releaseRows_other hn hlock ho, fun k o' ho => ?_⟩
      simp only [LockWorld.Holds, LockWorld.run]
      rw [hlease (Ne.symm ho)]
  | extend k₀ o₀ now e =>
      obtain rfl : o₀ = o := hs
      refine ⟨fun k lock hlock ho => extendRows_other hlock ho, fun k o' ho => ?_⟩
      simp only [LockWorld.Holds, LockWorld.run]
      rw [hlease (Ne.symm ho)]
  | acquire call now e => exact hs.elim
  | cleanup now => exact hs.elim

/-- Along every run: unexpired leases on one key belong to one owner; an
extension that finds its row is by the owner that acquired the key last; and a
release or an extension leaves rows and leases of other owners as they are. -/
theorem locks_exclusive {now₀ : Time}
    (h : Machine.Reach lockStep Machine.free { now := now₀ } w) :
    (∀ k o o', w.Holds k o → w.Holds k o' → o = o') ∧
    (∀ k o now e, 0 < (extendRows w.locks k o now e).2 → AcquiredSince k o w.history) ∧
    (∀ s o w', s.OfOwner o → lockStep w (.execute s) = some w' →
      (∀ k lock, Keyed.lookup DistributedLock.lockKey k w.locks = some lock → lock.ownerId ≠ o →
        Keyed.lookup DistributedLock.lockKey k w'.locks = some lock) ∧
      (∀ k o', o' ≠ o → (w'.Holds k o' ↔ w.Holds k o'))) := by
  have hw := LockInv.reach h
  refine ⟨?_, ?_, ?_⟩
  · rintro k o o' ⟨e, hlease, hlive⟩ ⟨e', hlease', hlive'⟩
    obtain ⟨lock, hlock, ho, -⟩ := hw.held k o e hlease hlive
    obtain ⟨lock', hlock', ho', -⟩ := hw.held k o' e' hlease' hlive'
    obtain rfl := Option.some.inj (hlock.symm.trans hlock')
    exact ho.symm.trans ho'
  · intro k o now e hcount
    obtain ⟨lock, hlock, hext⟩ :=
      lookup_of_countP hw.keys (fun _ h => (extendable_iff.mp h).1) hcount
    have hlast := hw.acquired k lock hlock
    rw [(extendable_iff.mp hext).2.1] at hlast
    exact acquiredSince_of_lastAcquirer hlast
  · intro s o w' hs hstep
    simp only [lockStep] at hstep
    split at hstep
    · obtain rfl := Option.some.inj hstep
      exact run_others (w := { w with statements := w.statements.erase s }) hw.keys hs
    · cases hstep

end Exclusion

/-- A lease that runs out is taken over, and the extension its owner has sent
in time finds nothing. -/
def takeOverRun : List LockEvent :=
  let a : AcquireCall := ⟨"k", "a", 30, 100, 0⟩
  let b : AcquireCall := ⟨"k", "b", 30, 100, 10⟩
  [.acquireLock "k" "a" 30 100, .attempt a, .execute (.acquire a 0 30), .tick 10,
    .acquireLock "k" "b" 30 100, .attempt b, .execute (.acquire b 10 40),
    .extendLock "k" "a" 30, .sendExtend ⟨"k", "a", 30, 10⟩, .tick 30,
    .attempt b, .execute (.acquire b 30 60), .execute (.extend "k" "a" 10 40)]

theorem takeOverRun_history :
    (Machine.exec lockStep { now := 0 } takeOverRun).map (fun w => (w.now, w.history)) =
      some (30, [⟨.acquired, "k", "b", some 60⟩, ⟨.acquired, "k", "a", some 30⟩]) := by
  decide +kernel

theorem locks_exclusive_takeOver :
    ∃ w, Machine.exec lockStep { now := 0 } takeOverRun = some w ∧ w.Holds "k" "b" ∧
      ∀ o, w.Holds "k" o → o = "b" := by
  obtain ⟨w, hexec, hw⟩ := Option.map_eq_some_iff.mp takeOverRun_history
  obtain ⟨hnow, hhistory⟩ := Prod.mk.inj hw
  have hb : w.Holds "k" "b" := ⟨60, by rw [hhistory]; rfl, by rw [hnow]; decide⟩
  exact ⟨w, hexec, hb, fun o ho =>
    (locks_exclusive (Machine.reach_of_exec hexec)).1 "k" o "b" ho hb⟩

end Incudal
