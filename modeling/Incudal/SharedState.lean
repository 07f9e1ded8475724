/-
# `SharedState` — one-time keys and counters in the memory of one process

Without Redis the shared state is a map of the process: entries with a time of
expiry, in the order of their insertion.  An expired entry is dropped when its
key is read.  The map never grows past `MAX_MEMORY_KEYS`: an insertion into a
full map drops the first expired entry, or else the oldest one, whether or not
it is still good.

So a nonce or a counter lasts for its time as long as nothing removes or
replaces it and no insertion finds the map full of entries that are all good
(`shared_state_kept`).
-/
import Incudal.AgentReport
import Incudal.BodyAgreement
import Incudal.Lib.Keyed
import Incudal.Lib.Machine

namespace Incudal

open Json (JsChar)

/-! ## The map -/

structure MemoryEntry where
  key : Text
  value : Text
  expiresAt : Time
deriving DecidableEq

/-- `memoryStore`; a new key comes last. -/
abbrev MemoryStore := List MemoryEntry

def MAX_MEMORY_KEYS : ℕ := 50000

/-- `memGet`: the map, and the value. -/
def memGet (store : MemoryStore) (now : Time) (key : Text) : MemoryStore × Option Text :=
  match Keyed.lookup MemoryEntry.key key store with
  | none => (store, none)
  | some entry =>
      if entry.expiresAt < now then (Keyed.erase MemoryEntry.key key store, none)
      else (store, some entry.value)

/-- The first loop of `memSet`, at a map of the given size: expired entries are dropped until there
is room. -/
def dropExpired (now : Time) : ℕ → MemoryStore → MemoryStore
  | _, [] => []
  | size, entry :: entries =>
      if entry.expiresAt < now then
        if size - 1 < MAX_MEMORY_KEYS then entries else dropExpired now (size - 1) entries
      else if size < MAX_MEMORY_KEYS then entry :: entries
      else entry :: dropExpired now size entries

/-- What `memSet` does before it writes; the second loop drops the oldest entries. -/
def makeRoom (store : MemoryStore) (now : Time) : MemoryStore :=
  if store.length < MAX_MEMORY_KEYS then store
  else
    let store := dropExpired now store.length store
    store.drop (store.length + 1 - MAX_MEMORY_KEYS)

/-- `Map.set`: a key that is there keeps its place. -/
def MemoryStore.put (store : MemoryStore) (entry : MemoryEntry) : MemoryStore :=
  if (Keyed.lookup MemoryEntry.key entry.key store).isSome then
    Keyed.modify MemoryEntry.key entry.key (fun _ => entry) store
  else store ++ [entry]

/-- `memSet`. -/
def memSet (store : MemoryStore) (now : Time) (key value : Text) (ttlMs : ℤ) : MemoryStore :=
  (makeRoom store now).put { key, value, expiresAt := now + ttlMs }

/-! ## The primitives -/

/-- `sharedDelPrefix`. -/
def sharedDelPrefix (store : MemoryStore) (start : Text) : MemoryStore :=
  store.filter fun entry => !entry.key.startsWith start

/-- `sharedListKeys`. -/
def sharedListKeys (store : MemoryStore) (start : Text) : List Text :=
  (store.map (·.key)).filter (Text.startsWith · start)

/-- `sharedConsume`. -/
def sharedConsume (store : MemoryStore) (now : Time) (key : Text) : MemoryStore × Option Text :=
  match memGet store now key with
  | (store, none) => (store, none)
  | (store, some value) => (Keyed.erase MemoryEntry.key key store, some value)

/-- `sharedAddOnce`. -/
def sharedAddOnce (store : MemoryStore) (now : Time) (key : Text) (ttlMs : ℤ) :
    MemoryStore × Bool :=
  match memGet store now key with
  | (store, some _) => (store, false)
  | (store, none) => (memSet store now key (text "1") ttlMs, true)

section Counters

-- `Number(value) + 1` and its text, for a value that is not made of digits
variable (otherCount : Text → Option ℚ × Text)

/-- `Number(value) + 1` and its text; nothing for a count that is not finite. -/
def nextCount (value : Text) : Option ℚ × Text :=
  match value.digits? with
  | some (digit :: digits) =>
      let count := Binary64.toDouble
        (Binary64.toDouble (Nat.ofDigitChars 10 (digit :: digits) 0) + 1)
      match naturalText count with
      | some shown => (some count, shown.map .char)
      | none => (none, text "Infinity")
  | _ => otherCount value

/-- `sharedIncrement`. -/
def sharedIncrement (store : MemoryStore) (now : Time) (key : Text) (windowMs : ℤ) :
    MemoryStore × Option ℚ :=
  match Keyed.lookup MemoryEntry.key key store with
  | none => (memSet store now key (text "1") windowMs, some 1)
  | some existing =>
      if existing.expiresAt < now then (memSet store now key (text "1") windowMs, some 1)
      else
        let (count, value) := nextCount otherCount existing.value
        (Keyed.modify MemoryEntry.key key (fun entry => { entry with value }) store, count)

/-! ## Runs -/

inductive MemoryOp
  | get (key : Text)
  | set (key value : Text) (ttlMs : ℤ)
  | del (key : Text)
  | delPrefix (start : Text)
  | listKeys (start : Text)
  | consume (key : Text)
  | addOnce (key : Text) (ttlMs : ℤ)
  | increment (key : Text) (windowMs : ℤ)
deriving DecidableEq

namespace MemoryOp

/-- The map after an operation. -/
def apply (store : MemoryStore) (now : Time) : MemoryOp → MemoryStore
  | .get key => (memGet store now key).1
  | .set key value ttlMs => memSet store now key value ttlMs
  | .del key => Keyed.erase MemoryEntry.key key store
  | .delPrefix start => sharedDelPrefix store start
  | .listKeys _ => store
  | .consume key => (sharedConsume store now key).1
  | .addOnce key ttlMs => (sharedAddOnce store now key ttlMs).1
  | .increment key windowMs => (sharedIncrement otherCount store now key windowMs).1

/-- The call of `memSet` that an operation makes: the map it is called with, and the key. -/
def insertion (store : MemoryStore) (now : Time) : MemoryOp → Option (MemoryStore × Text)
  | .set key _ _ => some (store, key)
  | .addOnce key _ =>
      match memGet store now key with
      | (_, some _) => none
      | (store, none) => some (store, key)
  | .increment key _ =>
      match Keyed.lookup MemoryEntry.key key store with
      | none => some (store, key)
      | some existing => if existing.expiresAt < now then some (store, key) else none
  | _ => none

/-- The key whose value an operation hands out for good. -/
def consumed (store : MemoryStore) (now : Time) : MemoryOp → Option Text
  | .consume key => (sharedConsume store now key).2.map fun _ => key
  | _ => none

end MemoryOp

/-- The map and the clock, and how often each key has been set and consumed. -/
structure MemoryWorld where
  store : MemoryStore := []
  clock : Time := 0
  sets : Text → ℕ := fun _ => 0
  consumptions : Text → ℕ := fun _ => 0

/-- A count of a key more. -/
def countKey (key : Option Text) (counts : Text → ℕ) : Text → ℕ :=
  fun k => if key = some k then counts k + 1 else counts k

/-- An operation at a time that is not before the last one. -/
def memoryStep (w : MemoryWorld) (event : Time × MemoryOp) : Option MemoryWorld :=
  let (now, op) := event
  if now < w.clock then none
  else
    some
      { store := op.apply otherCount w.store now
        clock := now
        sets := countKey ((op.insertion w.store now).map Prod.snd) w.sets
        consumptions := countKey (op.consumed w.store now) w.consumptions }

end Counters

/-! ## What spares a key -/

/-- The operation does not remove the key or set it anew. -/
def MemoryOp.Spares (key : Text) : MemoryOp → Prop
  | .set key' _ _ | .del key' | .consume key' => key' ≠ key
  | .delPrefix start => key.startsWith start = false
  | _ => True

/-- There is room for a key, or an expired entry that can make room for it. -/
def HasRoom (store : MemoryStore) (now : Time) : Prop :=
  store.length < MAX_MEMORY_KEYS ∨ ∃ entry ∈ store, entry.expiresAt < now

/-- A step that spares the key, and inserts nothing where there is no room. -/
def KeepsKey (key : Text) (w : MemoryWorld) (event : Time × MemoryOp) : Prop :=
  event.2.Spares key ∧
    ∀ called ∈ event.2.insertion w.store event.1, HasRoom called.1 event.1

/-! ## The map under its operations -/

section Store

variable {store store' : MemoryStore} {now : Time} {key k : Text} {entry e : MemoryEntry}

/-- No key is there twice, and there are not too many. -/
structure MemoryStore.Ok (store : MemoryStore) : Prop where
  nodup : (store.map MemoryEntry.key).Nodup
  length : store.length ≤ MAX_MEMORY_KEYS

theorem MemoryStore.Ok.sublist (h : store.Ok) (hsub : store'.Sublist store) :
    MemoryStore.Ok store' :=
  ⟨h.nodup.sublist (hsub.map _), hsub.length_le.trans h.length⟩

/-- What is left of the map shows what it showed before. -/
theorem MemoryStore.Ok.lookup_of_sublist (h : store.Ok) (hsub : store'.Sublist store)
    (hl : Keyed.lookup MemoryEntry.key k store' = some e) :
    Keyed.lookup MemoryEntry.key k store = some e := by
  obtain ⟨hmem, rfl⟩ := Keyed.mem_of_lookup hl
  exact Keyed.lookup_of_mem h.nodup (hsub.subset hmem)

theorem dropExpired_sublist (size : ℕ) : (dropExpired now size store).Sublist store := by
  induction store generalizing size with
  | nil => exact .refl _
  | cons entry entries ih =>
      simp only [dropExpired]
      split
      · split
        · exact List.sublist_cons_self _ _
        · exact (ih _).cons _
      · split
        · exact .refl _
        · exact (ih _).cons_cons _

theorem mem_dropExpired (size : ℕ) (he : e ∈ store) (hlive : ¬e.expiresAt < now) :
    e ∈ dropExpired now size store := by
  induction store generalizing size with
  | nil => cases he
  | cons entry entries ih =>
      simp only [dropExpired]
      rcases List.mem_cons.mp he with rfl | he
      · rw [if_neg hlive]
        split <;> exact List.mem_cons_self
      · split
        · split
          · exact he
          · exact ih _ he
        · split
          · exact List.mem_cons_of_mem _ he
          · exact List.mem_cons_of_mem _ (ih _ he)

theorem dropExpired_of_live (size : ℕ) (hlive : ∀ e ∈ store, ¬e.expiresAt < now) :
    dropExpired now size store = store := by
  induction store with
  | nil => rfl
  | cons entry entries ih =>
      obtain ⟨hentry, hentries⟩ := List.forall_mem_cons.mp hlive
      simp only [dropExpired, if_neg hentry, ih hentries, ite_self]

/-- In a full map the first expired entry is dropped. -/
theorem length_dropExpired (hexpired : ∃ e ∈ store, e.expiresAt < now) :
    (dropExpired now MAX_MEMORY_KEYS store).length + 1 = store.length := by
  have hmax : MAX_MEMORY_KEYS - 1 < MAX_MEMORY_KEYS := by decide
  induction store with
  | nil => obtain ⟨e, he, -⟩ := hexpired; cases he
  | cons entry entries ih =>
      simp only [dropExpired, if_pos hmax, lt_irrefl, if_false]
      split
      · rfl
      · rename_i hlive
        obtain ⟨e, he, hlt⟩ := hexpired
        rcases List.mem_cons.mp he with rfl | he
        · exact absurd hlt hlive
        · simp only [List.length_cons, ih ⟨e, he, hlt⟩]

theorem makeRoom_sublist : (makeRoom store now).Sublist store := by
  unfold makeRoom
  split
  · exact .refl _
  · exact (List.drop_sublist _ _).trans (dropExpired_sublist _)

theorem length_makeRoom : (makeRoom store now).length < MAX_MEMORY_KEYS := by
  have hmax : 0 < MAX_MEMORY_KEYS := by decide
  unfold makeRoom
  split
  · assumption
  · simp only [List.length_drop]
    omega

/-- Where there is room no live entry is dropped. -/
theorem mem_makeRoom (h : store.Ok) (hroom : HasRoom store now) (he : e ∈ store)
    (hlive : ¬e.expiresAt < now) : e ∈ makeRoom store now := by
  unfold makeRoom
  split
  · exact he
  · rename_i hfull
    have hlength : store.length = MAX_MEMORY_KEYS := le_antisymm h.length (not_lt.mp hfull)
    have hdropped := length_dropExpired (hroom.resolve_left hfull)
    have hzero : (dropExpired now MAX_MEMORY_KEYS store).length + 1 - MAX_MEMORY_KEYS = 0 := by
      omega
    simp only [hlength, hzero, List.drop_zero]
    exact mem_dropExpired _ he hlive

theorem lookup_put :
    Keyed.lookup MemoryEntry.key k (store.put entry)
      = if entry.key = k then some entry else Keyed.lookup MemoryEntry.key k store := by
  unfold MemoryStore.put
  split
  · rename_i hsome
    obtain ⟨old, hold⟩ := Option.isSome_iff_exists.mp hsome
    rw [Keyed.lookup_modify fun _ _ => rfl]
    by_cases hk : k = entry.key
    · rw [if_pos hk, if_pos hk.symm, hold, Option.map_some]
    · rw [if_neg hk, if_neg (Ne.symm hk)]
  · rename_i hnone
    exact Keyed.lookup_append_singleton (Keyed.lookup_eq_none_iff.mp (by simpa using hnone))

theorem MemoryStore.Ok.put (h : store.Ok) (hroom : store.length < MAX_MEMORY_KEYS) :
    MemoryStore.Ok (store.put entry) := by
  unfold MemoryStore.put
  split
  · refine ⟨?_, ?_⟩
    · rw [Keyed.map_key_modify_of fun _ _ => rfl]
      exact h.nodup
    · rw [Keyed.modify, List.length_map]
      exact h.length
  · rename_i hnone
    refine ⟨Keyed.nodup_append_singleton h.nodup
      (Keyed.lookup_eq_none_iff.mp (by simpa using hnone)), ?_⟩
    rw [List.length_append, List.length_singleton]
    exact hroom

theorem MemoryStore.Ok.modify {f : MemoryEntry → MemoryEntry} (h : store.Ok)
    (hf : ∀ r, (f r).key = r.key) : MemoryStore.Ok (Keyed.modify MemoryEntry.key key f store) := by
  refine ⟨?_, ?_⟩
  · rw [Keyed.map_key_modify hf]
    exact h.nodup
  · rw [Keyed.modify, List.length_map]
    exact h.length

theorem MemoryStore.Ok.memSet {value : Text} {ttlMs : ℤ} (h : store.Ok) :
    MemoryStore.Ok (memSet store now key value ttlMs) :=
  (h.sublist makeRoom_sublist).put length_makeRoom

/-- An insertion where there is room leaves the live entries of other keys. -/
theorem lookup_memSet_of_ne {value : Text} {ttlMs : ℤ} (h : store.Ok) (hroom : HasRoom store now)
    (hl : Keyed.lookup MemoryEntry.key k store = some e) (hlive : ¬e.expiresAt < now)
    (hne : key ≠ k) :
    Keyed.lookup MemoryEntry.key k (memSet store now key value ttlMs) = some e := by
  obtain ⟨hmem, rfl⟩ := Keyed.mem_of_lookup hl
  rw [memSet, lookup_put, if_neg hne]
  exact Keyed.lookup_of_mem (h.sublist makeRoom_sublist).nodup (mem_makeRoom h hroom hmem hlive)

theorem lookup_memSet_self {value : Text} {ttlMs : ℤ} :
    Keyed.lookup MemoryEntry.key key (memSet store now key value ttlMs)
      = some { key, value, expiresAt := now + ttlMs } := by
  rw [memSet, lookup_put, if_pos rfl]

/-- An insertion shows no other key that was not there. -/
theorem isSome_of_memSet {value : Text} {ttlMs : ℤ} (h : store.Ok)
    (hl : (Keyed.lookup MemoryEntry.key k (memSet store now key value ttlMs)).isSome) :
    key = k ∨ (Keyed.lookup MemoryEntry.key k store).isSome := by
  rw [memSet, lookup_put] at hl
  by_cases hk : key = k
  · exact .inl hk
  · rw [if_neg hk] at hl
    obtain ⟨e, he⟩ := Option.isSome_iff_exists.mp hl
    exact .inr (Option.isSome_iff_exists.mpr ⟨e, h.lookup_of_sublist makeRoom_sublist he⟩)

variable (store now key) in
/-- Reading a key drops its entry at most, and only an expired one. -/
theorem memGet_cases :
    (Keyed.lookup MemoryEntry.key key store = none ∧ memGet store now key = (store, none)) ∨
    (∃ e, Keyed.lookup MemoryEntry.key key store = some e ∧ e.expiresAt < now ∧
      memGet store now key = (Keyed.erase MemoryEntry.key key store, none)) ∨
    (∃ e, Keyed.lookup MemoryEntry.key key store = some e ∧ ¬e.expiresAt < now ∧
      memGet store now key = (store, some e.value)) := by
  unfold memGet
  split
  · exact .inl ⟨‹_›, rfl⟩
  · rename_i e he
    split
    · exact .inr (.inl ⟨e, he, ‹_›, rfl⟩)
    · exact .inr (.inr ⟨e, he, ‹_›, rfl⟩)

theorem erase_sublist : (Keyed.erase MemoryEntry.key key store).Sublist store :=
  List.filter_sublist

theorem lookup_erase_self : Keyed.lookup MemoryEntry.key key (Keyed.erase MemoryEntry.key key store)
    = none :=
  Keyed.lookup_eq_none_iff.mpr fun _ hr => (Keyed.mem_erase.mp hr).2

/-- Other keys are not erased. -/
theorem MemoryStore.Ok.lookup_erase (h : store.Ok) (hne : key ≠ k)
    (hl : Keyed.lookup MemoryEntry.key k store = some e) :
    Keyed.lookup MemoryEntry.key k (Keyed.erase MemoryEntry.key key store) = some e := by
  obtain ⟨hmem, rfl⟩ := Keyed.mem_of_lookup hl
  exact Keyed.lookup_of_mem (Keyed.nodup_erase h.nodup) (Keyed.mem_erase.mpr ⟨hmem, hne.symm⟩)

variable (store now key) in
theorem memGet_sublist : (memGet store now key).1.Sublist store := by
  rcases memGet_cases store now key with
    ⟨-, h⟩ | ⟨e, -, -, h⟩ | ⟨e, -, -, h⟩
  · exact h ▸ .refl _
  · exact h ▸ erase_sublist
  · exact h ▸ .refl _

variable (store now key) in
theorem sharedConsume_cases :
    sharedConsume store now key = ((memGet store now key).1, none) ∨
    ∃ e, Keyed.lookup MemoryEntry.key key store = some e ∧
      sharedConsume store now key = (Keyed.erase MemoryEntry.key key store, some e.value) := by
  unfold sharedConsume
  rcases memGet_cases store now key with
    ⟨-, hget⟩ | ⟨e, -, -, hget⟩ | ⟨e, he, -, hget⟩
  · simp [hget]
  · simp [hget]
  · exact .inr ⟨e, he, by simp [hget]⟩

theorem lookup_setValue {value : Text} :
    Keyed.lookup MemoryEntry.key k
        (Keyed.modify MemoryEntry.key key (fun entry => { entry with value }) store)
      = if k = key then (Keyed.lookup MemoryEntry.key key store).map ({ · with value })
        else Keyed.lookup MemoryEntry.key k store :=
  Keyed.lookup_modify fun _ hr => hr

/-- A live entry survives the reading of any key. -/
theorem MemoryStore.Ok.lookup_memGet (h : store.Ok)
    (hl : Keyed.lookup MemoryEntry.key k store = some e) (hlive : ¬e.expiresAt < now) :
    Keyed.lookup MemoryEntry.key k (memGet store now key).1 = some e := by
  rcases memGet_cases store now key with
    ⟨-, hget⟩ | ⟨e', he', hexpired, hget⟩ | ⟨e', -, -, hget⟩
  · rwa [hget]
  · rw [hget]
    refine h.lookup_erase ?_ hl
    rintro rfl
    exact hlive (Option.some.inj (hl.symm.trans he') ▸ hexpired)
  · rwa [hget]

end Store

/-! ## Counts -/

/-- A natural number as a value. -/
def countText (n : ℕ) : Text := (Nat.toDigits 10 n).map .char

theorem digits?_map_char {digits : List Char} (h : digits.all Char.isDigit) :
    Text.digits? (digits.map .char) = some digits := by
  induction digits with
  | nil => rfl
  | cons d digits ih =>
      simp only [List.all_cons, Bool.and_eq_true] at h
      have hrest := ih h.2
      simp only [Text.digits?] at hrest ⊢
      simp [h.1, hrest]

/-- Counts grow by one up to `2 ^ 53`, and stay there. -/
theorem toDouble_succ {n : ℕ} (hn : n ≤ 2 ^ 53) :
    n ≤ Binary64.toDouble (Binary64.toDouble n + 1) ∧
      Binary64.toDouble (Binary64.toDouble n + 1) ≤ 2 ^ 53 := by
  rcases Nat.lt_or_ge (n + 1) (2 ^ 53) with hlt | hge
  · rw [Binary64.toDouble_of_lt (Nat.lt_of_succ_lt hlt), Binary64.toDouble_of_lt hlt]
    omega
  · have hcases : n = 2 ^ 53 - 1 ∨ n = 2 ^ 53 := by omega
    rcases hcases with rfl | rfl <;> decide +kernel

theorem naturalText_of_le {n : ℕ} (hn : n ≤ 2 ^ 53) :
    naturalText n = some (Nat.toDigits 10 n) := by
  rcases Nat.lt_or_ge n (2 ^ 53) with hlt | hge
  · rw [naturalText_eq (hlt.trans (by decide)), Binary64.shortest_toDouble_of_lt hlt]
  · obtain rfl : n = 2 ^ 53 := le_antisymm hn hge
    decide +kernel

section Runs

variable {otherCount : Text → Option ℚ × Text} {n : ℕ}

variable (otherCount) in
theorem nextCount_countText (hn : n ≤ 2 ^ 53) :
    ∃ m, n ≤ m ∧ m ≤ 2 ^ 53 ∧ nextCount otherCount (countText n) = (some (m : ℚ), countText m) := by
  obtain ⟨hle, hbound⟩ := toDouble_succ hn
  refine ⟨_, hle, hbound, ?_⟩
  have hdigits : Text.digits? (countText n) = some (Nat.toDigits 10 n) :=
    digits?_map_char (isDigit_toDigits n)
  obtain ⟨d, ds, hcons⟩ := List.exists_cons_of_ne_nil (Nat.toDigits_ne_nil (n := n) (b := 10))
  rw [hcons] at hdigits
  simp only [nextCount, hdigits]
  rw [← hcons, Nat.ofDigitChars_ten_toDigits, naturalText_of_le hbound]
  rfl

/-! ## One operation -/

variable {store : MemoryStore} {now : Time} {key k : Text} {e : MemoryEntry} {op : MemoryOp}
  {w w' : MemoryWorld} {event : Time × MemoryOp}

theorem MemoryStore.Ok.apply (h : store.Ok) : MemoryStore.Ok (op.apply otherCount store now) := by
  cases op with
  | get key => exact h.sublist (memGet_sublist _ _ _)
  | set key value ttlMs => exact h.memSet
  | del key => exact h.sublist erase_sublist
  | delPrefix start => exact h.sublist List.filter_sublist
  | listKeys start => exact h
  | consume key =>
      simp only [MemoryOp.apply]
      rcases sharedConsume_cases store now key with hc | ⟨_, _, hc⟩
      · exact hc ▸ h.sublist (memGet_sublist _ _ _)
      · exact hc ▸ h.sublist erase_sublist
  | addOnce key ttlMs =>
      have hget := h.sublist (memGet_sublist _ now key)
      simp only [MemoryOp.apply, sharedAddOnce]
      split
      · rename_i heq
        rwa [heq] at hget
      · rename_i heq
        rw [heq] at hget
        exact hget.memSet
  | increment key windowMs =>
      simp only [MemoryOp.apply, sharedIncrement]
      split
      · exact h.memSet
      · split
        · exact h.memSet
        · exact h.modify fun _ => rfl

/-- A live entry survives what keeps its key; only its count may go on. -/
theorem lookup_apply_of_keeps (h : w.store.Ok) (hkeep : KeepsKey k w (now, op))
    (hl : Keyed.lookup MemoryEntry.key k w.store = some e) (hlive : ¬e.expiresAt < now) :
    ∃ value, (value = e.value ∨ value = (nextCount otherCount e.value).2) ∧
      Keyed.lookup MemoryEntry.key k (op.apply otherCount w.store now)
        = some { e with value } := by
  obtain ⟨hspares, hroom⟩ := hkeep
  cases op with
  | get key => exact ⟨e.value, .inl rfl, h.lookup_memGet hl hlive⟩
  | set key value ttlMs =>
      exact ⟨e.value, .inl rfl,
        lookup_memSet_of_ne h (hroom _ rfl) hl hlive hspares⟩
  | del key => exact ⟨e.value, .inl rfl, h.lookup_erase hspares hl⟩
  | delPrefix start =>
      obtain ⟨hmem, rfl⟩ := Keyed.mem_of_lookup hl
      have hstart : e.key.startsWith start = false := hspares
      exact ⟨e.value, .inl rfl, Keyed.lookup_of_mem
        (h.sublist List.filter_sublist).nodup (List.mem_filter.mpr ⟨hmem, by simp [hstart]⟩)⟩
  | listKeys start => exact ⟨e.value, .inl rfl, hl⟩
  | consume key =>
      refine ⟨e.value, .inl rfl, ?_⟩
      simp only [MemoryOp.apply]
      rcases sharedConsume_cases w.store now key with hc | ⟨_, _, hc⟩
      · exact hc ▸ h.lookup_memGet hl hlive
      · exact hc ▸ h.lookup_erase hspares hl
  | addOnce key ttlMs =>
      refine ⟨e.value, .inl rfl, ?_⟩
      have hget : Keyed.lookup MemoryEntry.key k (memGet w.store now key).1 = some e :=
        h.lookup_memGet hl hlive
      have hok := h.sublist (memGet_sublist _ now key)
      simp only [MemoryOp.apply, sharedAddOnce]
      simp only [MemoryOp.insertion] at hroom
      split
      · rename_i heq
        rwa [heq] at hget
      · rename_i heq
        rw [heq] at hget hok hroom
        refine lookup_memSet_of_ne hok (hroom _ rfl) hget hlive ?_
        -- the key itself is there, and is not added
        rintro rfl
        simp [memGet, hl, hlive] at heq
  | increment key windowMs =>
      simp only [MemoryOp.apply, sharedIncrement]
      simp only [MemoryOp.insertion] at hroom
      by_cases hk : key = k
      · subst hk
        refine ⟨(nextCount otherCount e.value).2, .inr rfl, ?_⟩
        simp only [hl, if_neg hlive]
        rw [lookup_setValue, if_pos rfl, hl, Option.map_some]
      · refine ⟨e.value, .inl rfl, ?_⟩
        split
        · rename_i hnone
          rw [hnone] at hroom
          exact lookup_memSet_of_ne h (hroom _ rfl) hl hlive hk
        · rename_i existing hsome
          split
          · rename_i hexpired
            simp only [hsome, if_pos hexpired] at hroom
            exact lookup_memSet_of_ne h (hroom _ rfl) hl hlive hk
          · simp only [lookup_setValue, if_neg (Ne.symm hk)]
            exact hl

/-- A key is there only where it was, or where it has been inserted. -/
theorem isSome_of_apply (h : store.Ok)
    (hl : (Keyed.lookup MemoryEntry.key k (op.apply otherCount store now)).isSome) :
    (op.insertion store now).map Prod.snd = some k ∨
      (Keyed.lookup MemoryEntry.key k store).isSome ∧ op.consumed store now ≠ some k := by
  have hsub : ∀ {store' : MemoryStore}, store'.Sublist store →
      (Keyed.lookup MemoryEntry.key k store').isSome →
      (Keyed.lookup MemoryEntry.key k store).isSome := by
    intro store' hs hsome
    obtain ⟨e, he⟩ := Option.isSome_iff_exists.mp hsome
    exact Option.isSome_iff_exists.mpr ⟨e, h.lookup_of_sublist hs he⟩
  cases op with
  | get key => exact .inr ⟨hsub (memGet_sublist _ _ _) hl, by simp [MemoryOp.consumed]⟩
  | set key value ttlMs =>
      rcases isSome_of_memSet h hl with rfl | hold
      · exact .inl rfl
      · exact .inr ⟨hold, by simp [MemoryOp.consumed]⟩
  | del key => exact .inr ⟨hsub erase_sublist hl, by simp [MemoryOp.consumed]⟩
  | delPrefix start => exact .inr ⟨hsub List.filter_sublist hl, by simp [MemoryOp.consumed]⟩
  | listKeys start => exact .inr ⟨hl, by simp [MemoryOp.consumed]⟩
  | consume key =>
      simp only [MemoryOp.apply] at hl
      rcases sharedConsume_cases store now key with hc | ⟨_, _, hc⟩
      · rw [hc] at hl
        exact .inr ⟨hsub (memGet_sublist _ _ _) hl, by simp [MemoryOp.consumed, hc]⟩
      · rw [hc] at hl
        refine .inr ⟨hsub erase_sublist hl, ?_⟩
        simp only [MemoryOp.consumed, hc, Option.map_some, ne_eq, Option.some.injEq]
        rintro rfl
        rw [lookup_erase_self] at hl
        cases hl
  | addOnce key ttlMs =>
      have hget := memGet_sublist store now key
      simp only [MemoryOp.apply, sharedAddOnce] at hl
      simp only [MemoryOp.insertion]
      split at hl
      · rename_i heq
        rw [heq] at hget
        exact .inr ⟨hsub hget hl, by simp [MemoryOp.consumed]⟩
      · rename_i heq
        rw [heq] at hget
        rcases isSome_of_memSet (h.sublist hget) hl with rfl | hold
        · exact .inl (by simp)
        · exact .inr ⟨hsub hget hold, by simp [MemoryOp.consumed]⟩
  | increment key windowMs =>
      simp only [MemoryOp.apply, sharedIncrement] at hl
      simp only [MemoryOp.insertion]
      split at hl
      · rename_i hnone
        rcases isSome_of_memSet h hl with rfl | hold
        · exact .inl (by simp)
        · exact .inr ⟨hold, by simp [MemoryOp.consumed]⟩
      · rename_i existing hsome
        split at hl
        · rename_i hexpired
          rcases isSome_of_memSet h hl with rfl | hold
          · exact .inl (by simp [hexpired])
          · exact .inr ⟨hold, by simp [MemoryOp.consumed]⟩
        · refine .inr ⟨?_, by simp [MemoryOp.consumed]⟩
          by_cases hk : k = key
          · exact hk ▸ hsome ▸ rfl
          · simpa only [lookup_setValue, if_neg hk] using hl

/-- What is consumed was there. -/
theorem isSome_of_consumed (hconsumed : op.consumed store now = some k) :
    (Keyed.lookup MemoryEntry.key k store).isSome ∧ (op.insertion store now).map Prod.snd ≠ some k := by
  cases op with
  | consume key =>
      refine ⟨?_, by simp [MemoryOp.insertion]⟩
      rcases sharedConsume_cases store now key with hc | ⟨e, he, hc⟩
      · simp [MemoryOp.consumed, hc] at hconsumed
      · simp only [MemoryOp.consumed, hc, Option.map_some, Option.some.injEq] at hconsumed
        exact hconsumed ▸ he ▸ rfl
  | _ => cases hconsumed

/-! ## Runs -/

theorem memoryStep_some (h : memoryStep otherCount w event = some w') :
    w.clock ≤ event.1 ∧ w' =
      { store := event.2.apply otherCount w.store event.1
        clock := event.1
        sets := countKey ((event.2.insertion w.store event.1).map Prod.snd) w.sets
        consumptions := countKey (event.2.consumed w.store event.1) w.consumptions } := by
  obtain ⟨now, op⟩ := event
  simp only [memoryStep] at h
  split at h
  · contradiction
  · rename_i hclock
    exact ⟨not_lt.mp hclock, (Option.some.inj h).symm⟩

/-- The map stays well formed, and a key is consumed at most once per setting: once more if it is
still there. -/
structure MemoryWorld.Inv (w : MemoryWorld) : Prop where
  ok : w.store.Ok
  consumed : ∀ k, w.consumptions k ≤ w.sets k
  present : ∀ k, (Keyed.lookup MemoryEntry.key k w.store).isSome → w.consumptions k < w.sets k

theorem MemoryWorld.Inv.start {now : Time} : MemoryWorld.Inv { clock := now } where
  ok := ⟨List.nodup_nil, Nat.zero_le _⟩
  consumed := fun _ => le_rfl
  present := fun _ hl => by cases hl

theorem MemoryWorld.Inv.step (h : w.Inv) (hs : memoryStep otherCount w event = some w') :
    w'.Inv := by
  obtain ⟨-, rfl⟩ := memoryStep_some hs
  refine ⟨h.ok.apply, fun k => ?_, fun k hl => ?_⟩
  · simp only [countKey]
    by_cases hconsumed : event.2.consumed w.store event.1 = some k
    · obtain ⟨hthere, hinsert⟩ := isSome_of_consumed hconsumed
      rw [if_pos hconsumed, if_neg hinsert]
      exact h.present k hthere
    · rw [if_neg hconsumed]
      have := h.consumed k
      split <;> omega
  · simp only [countKey]
    by_cases hconsumed : event.2.consumed w.store event.1 = some k
    · obtain ⟨-, hinsert⟩ := isSome_of_consumed hconsumed
      rcases isSome_of_apply h.ok hl with hins | ⟨-, hnot⟩
      · exact absurd hins hinsert
      · exact absurd hconsumed hnot
    · rw [if_neg hconsumed]
      rcases isSome_of_apply h.ok hl with hins | ⟨hthere, -⟩
      · rw [if_pos hins]
        exact Nat.lt_succ_of_le (h.consumed k)
      · have := h.present k hthere
        split <;> omega

theorem MemoryWorld.Inv.reach {ok : MemoryWorld → Time × MemoryOp → Prop} (h : w.Inv)
    (hrun : Machine.Reach (memoryStep otherCount) ok w w') : w'.Inv :=
  hrun.invariant (P := MemoryWorld.Inv) h fun hinv _ hs => hinv.step hs

/-- Until it expires an entry is there in every state that steps that keep its key lead to. -/
theorem lookup_of_reach {P : Text → Prop} (h : w.Inv)
    (hrun : Machine.Reach (memoryStep otherCount) (KeepsKey k) w w')
    (hl : Keyed.lookup MemoryEntry.key k w.store = some e) (hclock : w'.clock ≤ e.expiresAt)
    (hvalue : P e.value) (hnext : ∀ value, P value → P (nextCount otherCount value).2) :
    ∃ value, P value ∧ Keyed.lookup MemoryEntry.key k w'.store = some { e with value } := by
  have hinv := hrun.invariant
    (P := fun u => u.Inv ∧ (u.clock ≤ e.expiresAt → ∃ value, P value ∧
      Keyed.lookup MemoryEntry.key k u.store = some { e with value }))
    ⟨h, fun _ => ⟨e.value, hvalue, hl⟩⟩ ?_
  · exact hinv.2 hclock
  · rintro u u' ⟨now, op⟩ ⟨hu, hthere⟩ hkeep hs
    refine ⟨hu.step hs, fun hle => ?_⟩
    obtain ⟨hnow, rfl⟩ := memoryStep_some hs
    obtain ⟨value, hP, hlu⟩ := hthere (hnow.trans hle)
    obtain ⟨value', hvalue', hlu'⟩ := lookup_apply_of_keeps hu.ok hkeep hlu
      (not_lt.mpr hle)
    refine ⟨value', ?_, hlu'⟩
    rcases hvalue' with rfl | rfl
    · exact hP
    · exact hnext _ hP

theorem sharedAddOnce_of_live {ttlMs : ℤ} (hl : Keyed.lookup MemoryEntry.key k store = some e)
    (hlive : ¬e.expiresAt < now) : (sharedAddOnce store now k ttlMs).2 = false := by
  simp [sharedAddOnce, memGet, hl, hlive]

/-- What `sharedAddOnce` leaves when it returns `true`. -/
theorem lookup_sharedAddOnce {ttlMs : ℤ} (h : (sharedAddOnce store now k ttlMs).2 = true) :
    Keyed.lookup MemoryEntry.key k (sharedAddOnce store now k ttlMs).1
      = some { key := k, value := text "1", expiresAt := now + ttlMs } := by
  unfold sharedAddOnce at h ⊢
  split at h
  · cases h
  · exact lookup_memSet_self

variable (otherCount) in
/-- A counter within its window counts on from where it is. -/
theorem sharedIncrement_of_live (windowMs : ℤ) (hn : n ≤ 2 ^ 53)
    (hl : Keyed.lookup MemoryEntry.key k store = some { e with value := countText n })
    (hlive : ¬e.expiresAt < now) :
    ∃ m, n ≤ m ∧ m ≤ 2 ^ 53 ∧ (sharedIncrement otherCount store now k windowMs).2 = some (m : ℚ) ∧
      Keyed.lookup MemoryEntry.key k (sharedIncrement otherCount store now k windowMs).1
        = some { e with value := countText m } := by
  obtain ⟨m, hle, hbound, hnext⟩ := nextCount_countText otherCount hn
  refine ⟨m, hle, hbound, ?_, ?_⟩
  · simp only [sharedIncrement, hl, if_neg hlive, hnext]
  · simp only [sharedIncrement, hl, if_neg hlive, hnext, lookup_setValue, if_pos, Option.map_some]

/-- The first increment of a window. -/
theorem lookup_sharedIncrement_first {windowMs : ℤ}
    (h : (MemoryOp.increment k windowMs).insertion store now ≠ none) :
    Keyed.lookup MemoryEntry.key k (sharedIncrement otherCount store now k windowMs).1
      = some { key := k, value := countText 1, expiresAt := now + windowMs } := by
  unfold sharedIncrement
  simp only [MemoryOp.insertion] at h
  split
  · exact lookup_memSet_self
  · rename_i existing hsome
    split
    · exact lookup_memSet_self
    · rename_i hlive
      simp [hsome, hlive] at h

end Runs

section Promises

variable (otherCount : Text → Option ℚ × Text) (k : Text) (w : MemoryWorld)

/-- Once `addOnce` has added the key in the state, it does not add it again within its time, after
steps that keep the key. -/
def AddedOnce : Prop :=
  ∀ (w₁ w₂ : MemoryWorld) (ttlMs ttlMs' : ℤ) (t₁ t₂ : Time),
    memoryStep otherCount w (t₁, .addOnce k ttlMs) = some w₁ →
    (sharedAddOnce w.store t₁ k ttlMs).2 = true →
    Machine.Reach (memoryStep otherCount) (KeepsKey k) w₁ w₂ →
    w₂.clock ≤ t₂ → t₂ ≤ t₁ + ttlMs → (sharedAddOnce w₂.store t₂ k ttlMs').2 = false

/-- Where a count begins in the state, of two counts within its window the later one is not less,
after steps that keep the key. -/
def CountsRise : Prop :=
  ∀ (w₁ w₂ w₃ w₄ : MemoryWorld) (windowMs windowMs₂ windowMs₄ : ℤ) (t₁ t₂ t₄ : Time),
    memoryStep otherCount w (t₁, .increment k windowMs) = some w₁ →
    (MemoryOp.increment k windowMs).insertion w.store t₁ ≠ none →
    Machine.Reach (memoryStep otherCount) (KeepsKey k) w₁ w₂ →
    memoryStep otherCount w₂ (t₂, .increment k windowMs₂) = some w₃ →
    Machine.Reach (memoryStep otherCount) (KeepsKey k) w₃ w₄ →
    w₄.clock ≤ t₄ → t₄ ≤ t₁ + windowMs →
    ∃ m n : ℕ, (sharedIncrement otherCount w₂.store t₂ k windowMs₂).2 = some (m : ℚ) ∧
      (sharedIncrement otherCount w₄.store t₄ k windowMs₄).2 = some (n : ℚ) ∧ m ≤ n

end Promises

/-- An entry with the key that has the one unit `i`, good for a second. -/
def fillerEntry (i : ℕ) : MemoryEntry := { key := [.lone i], value := [], expiresAt := 1000 }

/-- A nonce with the empty key, and `n` other entries behind it. -/
def nonceAndFillers (n : ℕ) : MemoryStore :=
  { key := [], value := text "1", expiresAt := 1000 } :: (List.range n).map fillerEntry

section Full

variable {otherCount : Text → Option ℚ × Text} {n : ℕ}

theorem length_nonceAndFillers : (nonceAndFillers n).length = n + 1 := by simp [nonceAndFillers]

theorem lookup_filler {store : MemoryStore} (h : store.Sublist (nonceAndFillers n)) :
    Keyed.lookup MemoryEntry.key [.lone n] store = none := by
  refine Keyed.lookup_eq_none_iff.mpr fun entry hentry => ?_
  rcases List.mem_cons.mp (h.subset hentry) with rfl | hentry
  · simp
  · obtain ⟨i, hi, rfl⟩ := List.mem_map.mp hentry
    have hlt := List.mem_range.mp hi
    simp only [fillerEntry, ne_eq, List.cons.injEq, JsChar.lone.injEq, and_true]
    omega

/-- An entry more, as long as there is room. -/
theorem memSet_filler (hn : n + 1 < MAX_MEMORY_KEYS) :
    memSet (nonceAndFillers n) 0 [.lone n] [] 1000 = nonceAndFillers (n + 1) := by
  have hroom : makeRoom (nonceAndFillers n) 0 = nonceAndFillers n := by
    rw [makeRoom, if_pos (length_nonceAndFillers ▸ hn)]
  rw [memSet, hroom, MemoryStore.put, lookup_filler (.refl _)]
  simp [nonceAndFillers, List.range_succ, fillerEntry]

/-- No entry has expired, and the oldest one goes. -/
theorem memSet_full (hn : n + 1 = MAX_MEMORY_KEYS) :
    memSet (nonceAndFillers n) 0 [.lone n] [] 1000 = (List.range (n + 1)).map fillerEntry := by
  have hlive : ∀ e ∈ nonceAndFillers n, ¬e.expiresAt < 0 := by
    intro e he
    rcases List.mem_cons.mp he with rfl | he
    · decide
    · obtain ⟨i, -, rfl⟩ := List.mem_map.mp he
      simp [fillerEntry]
  have hroom : makeRoom (nonceAndFillers n) 0 = (List.range n).map fillerEntry := by
    have hone : n + 1 + 1 - MAX_MEMORY_KEYS = 1 := by omega
    rw [makeRoom, dropExpired_of_live _ hlive]
    simp only [length_nonceAndFillers, hn.not_lt, if_false, hone]
    rfl
  rw [memSet, hroom, MemoryStore.put, lookup_filler (List.sublist_cons_self _ _), List.range_succ,
    List.map_append]
  rfl

variable (otherCount) in
theorem memoryStep_of_le {w : MemoryWorld} {now : Time} (op : MemoryOp) (h : w.clock ≤ now) :
    memoryStep otherCount w (now, op) = some
      { store := op.apply otherCount w.store now
        clock := now
        sets := countKey ((op.insertion w.store now).map Prod.snd) w.sets
        consumptions := countKey (op.consumed w.store now) w.consumptions } := by
  simp only [memoryStep, if_neg h.not_gt]

variable (otherCount) in
/-- Insertions of other keys, which spare the nonce. -/
theorem reach_nonceAndFillers (hn : n + 1 ≤ MAX_MEMORY_KEYS) {w : MemoryWorld}
    (hstore : w.store = nonceAndFillers 0) (hclock : w.clock = 0) :
    ∃ w', Machine.Reach (memoryStep otherCount) (fun _ event => event.2.Spares []) w w' ∧
      w'.store = nonceAndFillers n ∧ w'.clock = 0 := by
  induction n with
  | zero => exact ⟨w, .refl, hstore, hclock⟩
  | succ n ih =>
      obtain ⟨w', hrun, hstore', hclock'⟩ := ih (Nat.le_of_succ_le hn)
      have hstep := memoryStep_of_le otherCount (.set [.lone n] [] 1000) hclock'.le
      refine ⟨_, hrun.tail ?_ hstep, ?_, rfl⟩
      · simp [MemoryOp.Spares]
      · simp only [MemoryOp.apply, hstore', memSet_filler hn]

/-- Values that are not made of digits count as nothing. -/
def noOtherCount : Text → Option ℚ × Text := fun _ => (none, [])

end Full

end Incudal
