/-
# `LoginAttempts` — the lock after failed logins

The failures of a key (an address and a name) are counted in a map of the
process.  Five of them, each at most five minutes after the one before, lock
the key for a quarter of an hour; and the map is to hold at most
`LOGIN_ATTEMPT_MAX_KEYS` keys, since anyone can make up keys.

Entries are evicted after a failure that adds to a count.  The failure that
starts one returns before that, so the map grows with every new key
(`login_attempts_flooded`); and it starts one also at a key that is locked,
more than five minutes after its last failure, which undoes the lock.  Where
neither happens, map and locks are what they should be
(`login_attempts_bounded`).
-/
import Incudal.Lib.InsertionMap
import Incudal.Lib.Machine

namespace Incudal

/-! ## The code -/

/-- Milliseconds since the epoch, as in all of this module. -/
structure LoginAttempt where
  count : ℕ
  lastAttempt : ℕ
  lockedUntil : Option ℕ
deriving DecidableEq, Repr

/-- `loginAttempts` -/
abbrev LoginAttempts := List (String × LoginAttempt)

def LOGIN_ATTEMPT_MAX_KEYS : ℕ := 20000

namespace LoginConfig

def maxAttempts : ℕ := 5

def lockDuration : ℕ := 15 * 60 * 1000

def attemptWindow : ℕ := 5 * 60 * 1000

end LoginConfig

open LoginConfig

/-- The second loop of the eviction: the oldest key, while there are too many. -/
def evictOldest : LoginAttempts → LoginAttempts
  | [] => []
  | oldest :: attempts =>
      if (oldest :: attempts).length ≤ LOGIN_ATTEMPT_MAX_KEYS then oldest :: attempts
      else evictOldest attempts

/-- The first loop, at the entries that are left to visit. -/
def evictExpired (now : ℕ) : LoginAttempts → LoginAttempts → LoginAttempts
  | [], attempts => evictOldest attempts
  | (key, entry) :: rest, attempts =>
      let expiresAt := entry.lockedUntil.getD (entry.lastAttempt + attemptWindow)
      let attempts := if expiresAt < now then Keyed.erase Prod.fst key attempts else attempts
      if attempts.length ≤ LOGIN_ATTEMPT_MAX_KEYS then attempts
      else evictExpired now rest attempts

def evictLoginAttemptsIfNeeded (now : ℕ) (attempts : LoginAttempts) : LoginAttempts :=
  if attempts.length ≤ LOGIN_ATTEMPT_MAX_KEYS then attempts
  else evictExpired now attempts attempts

def loginKey (ip username : String) : String := ip ++ ":" ++ username

/-- What `checkLoginLock` returns; `retryAfter` in seconds. -/
structure LoginLock where
  locked : Bool
  retryAfter : Option ℕ
deriving DecidableEq, Repr

def checkLoginLock (now : ℕ) (ip username : String) (attempts : LoginAttempts) :
    LoginLock × LoginAttempts :=
  let key := loginKey ip username
  match InsertionMap.get key attempts with
  | none => (⟨false, none⟩, attempts)
  | some attempt =>
      match attempt.lockedUntil with
      | none => (⟨false, none⟩, attempts)
      | some lockedUntil =>
          if now < lockedUntil then (⟨true, some ((lockedUntil - now + 999) / 1000)⟩, attempts)
          else (⟨false, none⟩, Keyed.erase Prod.fst key attempts)

def recordLoginFailure (now : ℕ) (ip username : String) (attempts : LoginAttempts) :
    LoginAttempts :=
  let key := loginKey ip username
  match InsertionMap.get key attempts with
  | none => InsertionMap.set key ⟨1, now, none⟩ attempts
  | some attempt =>
      if attemptWindow < now - attempt.lastAttempt then
        -- a new period starts, whether or not the key is locked
        InsertionMap.set key ⟨1, now, none⟩ attempts
      else
        let count := attempt.count + 1
        let lockedUntil :=
          if LoginConfig.maxAttempts ≤ count then some (now + lockDuration) else attempt.lockedUntil
        evictLoginAttemptsIfNeeded now
          (InsertionMap.set key { count, lastAttempt := now, lockedUntil } attempts)

def clearLoginFailure (ip username : String) (attempts : LoginAttempts) : LoginAttempts :=
  Keyed.erase Prod.fst (loginKey ip username) attempts

/-! ## Runs -/

/-- The map, and the times of the failures of each key since it was last
cleared, the last one first. -/
structure LoginWorld where
  clock : ℕ
  attempts : LoginAttempts
  failures : String → List ℕ

def LoginWorld.start : LoginWorld := ⟨0, [], fun _ => []⟩

inductive LoginStep
  | wait (ms : ℕ)
  | record (ip username : String)
  | check (ip username : String)
  | clear (ip username : String)

def loginStep (w : LoginWorld) : LoginStep → Option LoginWorld
  | .wait ms => some { w with clock := w.clock + ms }
  | .record ip username =>
      let key := loginKey ip username
      some { w with
        attempts := recordLoginFailure w.clock ip username w.attempts
        failures := Function.update w.failures key (w.clock :: w.failures key) }
  | .check ip username =>
      some { w with attempts := (checkLoginLock w.clock ip username w.attempts).2 }
  | .clear ip username =>
      some { w with
        attempts := clearLoginFailure ip username w.attempts
        failures := Function.update w.failures (loginKey ip username) [] }

/-- The steps that start a count neither at a full map nor at a locked key. -/
def startsInBounds (w : LoginWorld) : LoginStep → Bool
  | .record ip username =>
      match InsertionMap.get (loginKey ip username) w.attempts with
      | none => decide (w.attempts.length < LOGIN_ATTEMPT_MAX_KEYS)
      | some attempt =>
          decide (attemptWindow < w.clock - attempt.lastAttempt →
            ∀ lockedUntil ∈ attempt.lockedUntil, lockedUntil ≤ w.clock)
  | _ => true

/-- The map is small, and whoever failed five times is locked out. -/
structure LoginAttemptsSafe (w : LoginWorld) : Prop where
  bounded : w.attempts.length ≤ LOGIN_ATTEMPT_MAX_KEYS
  locked : ∀ ip username t₁ t₂ t₃ t₄ t₅,
    [t₅, t₄, t₃, t₂, t₁] <:+: w.failures (loginKey ip username) →
    t₂ ≤ t₁ + attemptWindow → t₃ ≤ t₂ + attemptWindow → t₄ ≤ t₃ + attemptWindow →
    t₅ ≤ t₄ + attemptWindow → w.clock < t₅ + lockDuration →
    (checkLoginLock w.clock ip username w.attempts).1.locked = true

/-! ## The eviction -/

/-- It takes nothing from a map that is small. -/
theorem evictLoginAttemptsIfNeeded_of_le {now : ℕ} {attempts : LoginAttempts}
    (h : attempts.length ≤ LOGIN_ATTEMPT_MAX_KEYS) :
    evictLoginAttemptsIfNeeded now attempts = attempts := if_pos h

/-! ## Histories -/

/-- How many of the last failures follow each other within the window. -/
def streak : List ℕ → ℕ
  | [] => 0
  | t :: rest =>
      if rest.head?.any fun u => decide (t - u ≤ attemptWindow) then streak rest + 1 else 1

/-- No failure after a lock came too late to prolong it and too early to find it over. -/
def LockKept : List ℕ → Prop
  | [] => True
  | t :: rest =>
      (LoginConfig.maxAttempts ≤ streak rest →
        ∀ u ∈ rest.head?, t < u + lockDuration → t - u ≤ attemptWindow) ∧ LockKept rest

section Histories

variable {h newer : List ℕ} {t u clock : ℕ}

theorem streak_cons_cons (hle : t ≤ u + attemptWindow) :
    streak (t :: u :: h) = streak (u :: h) + 1 := by
  rw [streak, if_pos]
  simp only [List.head?_cons, Option.any_some, decide_eq_true_eq]
  omega

/-- A failure long after the others starts a count. -/
theorem streak_of_late (hlate : ∀ u ∈ h.head?, attemptWindow < t - u) : streak (t :: h) = 1 := by
  rw [streak, if_neg]
  cases hhead : h.head? with
  | none => simp
  | some u =>
      have := hlate u hhead
      simp only [Option.any_some, decide_eq_true_eq]
      omega

theorem streak_pos (hne : h ≠ []) : 1 ≤ streak h := by
  obtain ⟨t, rest, rfl⟩ := List.exists_cons_of_ne_nil hne
  rw [streak]
  split <;> omega

/-- Five in a row count as five, or more. -/
theorem streak_of_five {t₁ t₂ t₃ t₄ t₅ : ℕ} (h₂ : t₂ ≤ t₁ + attemptWindow)
    (h₃ : t₃ ≤ t₂ + attemptWindow) (h₄ : t₄ ≤ t₃ + attemptWindow)
    (h₅ : t₅ ≤ t₄ + attemptWindow) :
    LoginConfig.maxAttempts ≤ streak (t₅ :: t₄ :: t₃ :: t₂ :: t₁ :: h) := by
  have := streak_pos (List.cons_ne_nil t₁ h)
  rw [streak_cons_cons h₅, streak_cons_cons h₄, streak_cons_cons h₃, streak_cons_cons h₂]
  unfold LoginConfig.maxAttempts
  omega

/-- As long as the lock runs, what is recorded adds to the streak. -/
theorem streak_of_lockKept (hkept : LockKept (newer ++ u :: h))
    (hsorted : (newer ++ u :: h).Pairwise (· ≥ ·))
    (hstreak : LoginConfig.maxAttempts ≤ streak (u :: h))
    (hlock : ∀ t ∈ newer, t < u + lockDuration) :
    LoginConfig.maxAttempts ≤ streak (newer ++ u :: h) := by
  induction newer with
  | nil => exact hstreak
  | cons t newer ih =>
      obtain ⟨hnext, hkept⟩ := hkept
      obtain ⟨-, hsorted⟩ := List.pairwise_cons.mp hsorted
      have hbefore := ih hkept hsorted fun s hs => hlock s (List.mem_cons_of_mem _ hs)
      -- the failure before `t` is `u` or one after it
      obtain ⟨s, hs, hus⟩ : ∃ s, (newer ++ u :: h).head? = some s ∧ u ≤ s := by
        cases newer with
        | nil => exact ⟨u, rfl, le_rfl⟩
        | cons s newer =>
            have hpair := (List.pairwise_cons.mp hsorted).1
            exact ⟨s, rfl, hpair u (List.mem_append_right _ List.mem_cons_self)⟩
      have hgap := hnext hbefore s hs (by
        have := hlock t List.mem_cons_self
        omega)
      rw [List.cons_append, streak, if_pos]
      · omega
      · simpa [hs] using hgap

end Histories

/-! ## The invariant -/

/-- The entry of a key with this history. -/
def EntryOk (clock : ℕ) (h : List ℕ) : Option LoginAttempt → Prop
  | some attempt =>
      h.head? = some attempt.lastAttempt ∧ attempt.count = streak h ∧
        attempt.lockedUntil =
          if LoginConfig.maxAttempts ≤ streak h then some (attempt.lastAttempt + lockDuration)
          else none
  | none => ∀ t ∈ h.head?, t + lockDuration ≤ clock

structure HistoryOk (clock : ℕ) (h : List ℕ) : Prop where
  sorted : h.Pairwise (· ≥ ·)
  past : ∀ t ∈ h, t ≤ clock
  kept : LockKept h

theorem historyOk_nil {clock : ℕ} : HistoryOk clock [] :=
  ⟨List.Pairwise.nil, fun _ ht => (List.not_mem_nil ht).elim, trivial⟩

structure LoginInv (w : LoginWorld) : Prop where
  bounded : w.attempts.length ≤ LOGIN_ATTEMPT_MAX_KEYS
  nodup : (w.attempts.map Prod.fst).Nodup
  entry : ∀ key, EntryOk w.clock (w.failures key) (InsertionMap.get key w.attempts)
  history : ∀ key, HistoryOk w.clock (w.failures key)

section Inv

variable {w : LoginWorld} {ip username : String} {h : List ℕ} {now : ℕ}

theorem loginInv_start : LoginInv .start where
  bounded := Nat.zero_le _
  nodup := List.nodup_nil
  entry _ := fun _ ht => by cases ht
  history _ := historyOk_nil

theorem LoginInv.wait (hw : LoginInv w) (ms : ℕ) :
    LoginInv { w with clock := w.clock + ms } where
  bounded := hw.bounded
  nodup := hw.nodup
  entry key := by
    have hentry := hw.entry key
    revert hentry
    cases InsertionMap.get key w.attempts with
    | some attempt => exact id
    | none => exact fun hentry t ht => (hentry t ht).trans (Nat.le_add_right _ _)
  history key :=
    ⟨(hw.history key).sorted,
      fun t ht => ((hw.history key).past t ht).trans (Nat.le_add_right _ _),
      (hw.history key).kept⟩

/-- An entry goes where its history lets it. -/
theorem LoginInv.erase {key : String} (hw : LoginInv w) (failures : String → List ℕ)
    (hother : ∀ key', key' ≠ key → failures key' = w.failures key')
    (hkey : EntryOk w.clock (failures key) none) (hhistory : HistoryOk w.clock (failures key)) :
    LoginInv { w with attempts := Keyed.erase Prod.fst key w.attempts, failures } where
  bounded := (List.length_filter_le _ _).trans hw.bounded
  nodup := Keyed.nodup_erase hw.nodup
  entry key' := by
    show EntryOk _ _ (InsertionMap.get key' (Keyed.erase Prod.fst key w.attempts))
    rw [InsertionMap.get_erase hw.nodup]
    split
    · rename_i heq
      exact heq ▸ hkey
    · rename_i hne
      show EntryOk w.clock (failures key') _
      rw [hother key' hne]
      exact hw.entry key'
  history key' := by
    by_cases heq : key' = key
    · exact heq ▸ hhistory
    · show HistoryOk w.clock (failures key')
      rw [hother key' heq]
      exact hw.history key'

theorem LoginInv.check (hw : LoginInv w) (ip username : String) :
    LoginInv { w with attempts := (checkLoginLock w.clock ip username w.attempts).2 } := by
  have hentry := hw.entry (loginKey ip username)
  simp only [checkLoginLock]
  split
  · exact hw
  · rename_i attempt hget
    rw [hget] at hentry
    obtain ⟨hhead, -, hlock⟩ := hentry
    split
    · exact hw
    · rename_i lockedUntil huntil
      split
      · exact hw
      · -- the lock is over: its end is a quarter of an hour after the last failure
        rename_i hover
        refine hw.erase w.failures (fun _ _ => rfl) (fun t ht => ?_)
          (hw.history _)
        rw [huntil] at hlock
        have hend := (Option.ite_none_right_eq_some.mp hlock.symm).2
        have hlast := Option.some.inj (hhead.symm.trans ht)
        have := Option.some.inj hend
        omega

theorem LoginInv.clear (hw : LoginInv w) (ip username : String) :
    LoginInv { w with
      attempts := clearLoginFailure ip username w.attempts
      failures := Function.update w.failures (loginKey ip username) [] } := by
  refine hw.erase _ (fun key' hne => Function.update_of_ne hne _ _) ?_ ?_
  · rw [Function.update_self]
    exact fun t ht => by cases ht
  · rw [Function.update_self]
    exact historyOk_nil

/-- One more failure, and the entry that is written for it. -/
theorem LoginInv.set {key : String} (hw : LoginInv w) (attempt : LoginAttempt)
    (hroom : InsertionMap.get key w.attempts = none →
      w.attempts.length < LOGIN_ATTEMPT_MAX_KEYS)
    (hentry : EntryOk w.clock (w.clock :: w.failures key) (some attempt))
    (hkept : LoginConfig.maxAttempts ≤ streak (w.failures key) → ∀ u ∈ (w.failures key).head?,
      w.clock < u + lockDuration → w.clock - u ≤ attemptWindow) :
    LoginInv { w with
      attempts := InsertionMap.set key attempt w.attempts
      failures := Function.update w.failures key (w.clock :: w.failures key) } where
  bounded := by
    have := hw.bounded
    show (InsertionMap.set key attempt w.attempts).length ≤ _
    rw [InsertionMap.length_set]
    split
    · exact this
    · rename_i hnone
      exact hroom (Option.not_isSome_iff_eq_none.mp hnone)
  nodup := InsertionMap.nodup_set hw.nodup
  entry key' := by
    show EntryOk w.clock (Function.update w.failures key _ key')
      (InsertionMap.get key' (InsertionMap.set key attempt w.attempts))
    rw [InsertionMap.get_set]
    by_cases heq : key' = key
    · subst heq
      rw [Function.update_self, if_pos rfl]
      exact hentry
    · rw [Function.update_of_ne heq, if_neg heq]
      exact hw.entry key'
  history key' := by
    show HistoryOk w.clock (Function.update w.failures key _ key')
    by_cases heq : key' = key
    · subst heq
      rw [Function.update_self]
      obtain ⟨hsorted, hpast, hrest⟩ := hw.history key'
      refine ⟨List.pairwise_cons.mpr ⟨hpast, hsorted⟩, fun t ht => ?_, hkept, hrest⟩
      rcases List.mem_cons.mp ht with rfl | ht
      · exact le_rfl
      · exact hpast t ht
    · rw [Function.update_of_ne heq]
      exact hw.history key'

theorem LoginInv.record (hw : LoginInv w)
    (hok : startsInBounds w (.record ip username) = true) :
    LoginInv { w with
      attempts := recordLoginFailure w.clock ip username w.attempts
      failures := Function.update w.failures (loginKey ip username)
        (w.clock :: w.failures (loginKey ip username)) } := by
  have hentry := hw.entry (loginKey ip username)
  simp only [startsInBounds] at hok
  simp only [recordLoginFailure]
  cases hget : InsertionMap.get (loginKey ip username) w.attempts with
  | none =>
      -- the last failure, if there is one, is a quarter of an hour ago
      rw [hget] at hok hentry
      have hstreak : streak (w.clock :: w.failures (loginKey ip username)) = 1 :=
        streak_of_late fun u hu => by
          have := hentry u hu
          unfold lockDuration attemptWindow at *
          omega
      refine hw.set _ (fun _ => of_decide_eq_true hok) ⟨rfl, hstreak.symm, ?_⟩ ?_
      · rw [hstreak]
        rfl
      · intro _ u hu hlt
        have := hentry u hu
        omega
  | some attempt =>
      rw [hget] at hok hentry
      obtain ⟨hhead, hcount, hlock⟩ := hentry
      have hroom : InsertionMap.get (loginKey ip username) w.attempts = none →
          w.attempts.length < LOGIN_ATTEMPT_MAX_KEYS := fun hnone => by
        rw [hget] at hnone
        cases hnone
      dsimp only
      split
      · rename_i hlate
        have hstreak : streak (w.clock :: w.failures (loginKey ip username)) = 1 :=
          streak_of_late fun u hu => by
            rw [hhead] at hu
            exact Option.some.inj hu ▸ hlate
        refine hw.set _ hroom ⟨rfl, hstreak.symm, ?_⟩ ?_
        · rw [hstreak]
          rfl
        · -- the lock of an earlier streak is over
          intro hmany u hu hlt
          have hover := of_decide_eq_true hok hlate _ (hlock.trans (if_pos hmany))
          have hlast := Option.some.inj (hhead.symm.trans hu)
          omega
      · rename_i hsoon
        obtain ⟨rest, hhistory⟩ : ∃ rest, w.failures (loginKey ip username) =
            attempt.lastAttempt :: rest := by
          cases hlist : w.failures (loginKey ip username) with
          | nil => simp [hlist] at hhead
          | cons t rest =>
              rw [hlist] at hhead
              exact ⟨rest, by rw [Option.some.inj hhead]⟩
        have hstreak : streak (w.clock :: w.failures (loginKey ip username)) =
            attempt.count + 1 := by
          rw [hcount, hhistory]
          exact streak_cons_cons (by omega)
        have hset := hw.set ⟨attempt.count + 1, w.clock,
            if LoginConfig.maxAttempts ≤ attempt.count + 1 then some (w.clock + lockDuration)
            else attempt.lockedUntil⟩ hroom ⟨rfl, hstreak.symm, ?_⟩ ?_
        · rw [evictLoginAttemptsIfNeeded_of_le hset.bounded]
          exact hset
        · rw [hstreak]
          dsimp only
          split
          · rfl
          · rw [hlock, if_neg]
            omega
        · intro _ u hu _
          have hlast := Option.some.inj (hhead.symm.trans hu)
          omega

/-- One step. -/
theorem LoginInv.step {w' : LoginWorld} {i : LoginStep} (hw : LoginInv w)
    (hok : startsInBounds w i = true) (hstep : loginStep w i = some w') : LoginInv w' := by
  cases i with
  | wait ms => exact Option.some.inj hstep ▸ hw.wait ms
  | record ip username => exact Option.some.inj hstep ▸ hw.record hok
  | check ip username => exact Option.some.inj hstep ▸ hw.check ip username
  | clear ip username => exact Option.some.inj hstep ▸ hw.clear ip username

/-- What the invariant says of the lock. -/
theorem LoginInv.safe (hw : LoginInv w) : LoginAttemptsSafe w where
  bounded := hw.bounded
  locked ip username t₁ t₂ t₃ t₄ t₅ hfive h₂ h₃ h₄ h₅ hclock := by
    obtain ⟨newer, older, hhistory⟩ := hfive
    obtain ⟨hsorted, hpast, hkept⟩ := hw.history (loginKey ip username)
    have hentry := hw.entry (loginKey ip username)
    have hsplit : w.failures (loginKey ip username) =
        newer ++ t₅ :: (t₄ :: t₃ :: t₂ :: t₁ :: older) := by
      rw [← hhistory]
      simp
    rw [hsplit] at hsorted hpast hkept hentry
    have hstreak := streak_of_lockKept hkept hsorted (streak_of_five h₂ h₃ h₄ h₅)
      fun t ht => (hpast t (List.mem_append_left _ ht)).trans_lt hclock
    -- the last failure is the fifth, or later
    obtain ⟨last, hlast, hle⟩ : ∃ last,
        (newer ++ t₅ :: (t₄ :: t₃ :: t₂ :: t₁ :: older)).head? = some last ∧ t₅ ≤ last := by
      cases newer with
      | nil => exact ⟨t₅, rfl, le_rfl⟩
      | cons t newer =>
          have hpair := (List.pairwise_cons.mp hsorted).1
          exact ⟨t, rfl, hpair t₅ (List.mem_append_right _ List.mem_cons_self)⟩
    cases hget : InsertionMap.get (loginKey ip username) w.attempts with
    | none =>
        rw [hget] at hentry
        have := hentry last hlast
        omega
    | some attempt =>
        rw [hget] at hentry
        obtain ⟨hhead, -, hlock⟩ := hentry
        rw [if_pos hstreak] at hlock
        have := Option.some.inj (hhead.symm.trans hlast)
        simp only [checkLoginLock, hget, hlock]
        rw [if_pos (by omega)]

end Inv

open Machine

/-- In every run in which no failure starts a count at a full map or at a locked key. -/
theorem login_attempts_bounded {w : LoginWorld}
    (hrun : Reach loginStep (fun w i => startsInBounds w i = true) .start w) :
    LoginAttemptsSafe w :=
  (hrun.invariant loginInv_start fun hw hok hstep => hw.step hok hstep).safe

/-- Five failures a minute apart, another key, and a check after eleven minutes. -/
def fiveFailures : List LoginStep :=
  let failure := LoginStep.record "192.0.2.1" "admin"
  [failure, .wait 60000, failure, .wait 60000, failure, .wait 60000, failure, .wait 60000,
    failure, .record "192.0.2.2" "admin", .wait 660000, .check "192.0.2.1" "admin"]

theorem login_attempts_bounded_five :
    ∃ w, exec (guarded loginStep startsInBounds) .start fiveFailures = some w ∧
      w.failures "192.0.2.1:admin" = [240000, 180000, 120000, 60000, 0] ∧ w.clock = 900000 ∧
        LoginAttemptsSafe w := by
  have hview : (exec (guarded loginStep startsInBounds) .start fiveFailures).map
      (fun w => (w.failures "192.0.2.1:admin", w.clock)) =
        some ([240000, 180000, 120000, 60000, 0], 900000) := by
    decide +kernel
  obtain ⟨w, hw, hhistory⟩ := Option.map_eq_some_iff.mp hview
  exact ⟨w, hw, congrArg Prod.fst hhistory, congrArg Prod.snd hhistory,
    login_attempts_bounded (reach_of_exec_guarded hw)⟩

/-- The lock is gone once a failure is recorded six minutes after the fifth. -/
example : (exec loginStep .start (fiveFailures.take 9 ++
    [.wait 360000, .record "192.0.2.1" "admin"])).map (fun w =>
      (checkLoginLock w.clock "192.0.2.1" "admin" w.attempts).1.locked) = some false := by
  decide +kernel

/-! ## A flood of names -/

/-- The names are told apart by their length. -/
def floodName (i : ℕ) : String := String.ofList (List.replicate i 'a')

/-- After one failure for each of so many names. -/
def flooded : ℕ → LoginWorld
  | 0 => .start
  | n + 1 => (loginStep (flooded n) (.record "192.0.2.1" (floodName n))).getD .start

theorem reach_flooded (n : ℕ) : Reach loginStep free .start (flooded n) := by
  induction n with
  | zero => exact .refl
  | succ n ih => exact .tail (i := .record "192.0.2.1" (floodName n)) ih trivial rfl

theorem loginKey_inj {ip name name' : String} (h : loginKey ip name = loginKey ip name') :
    name = name' := by
  have hlists := congrArg String.toList h
  simp only [loginKey, String.toList_append] at hlists
  exact String.toList_injective (List.append_cancel_left hlists)

theorem floodName_inj {i j : ℕ} (h : floodName i = floodName j) : i = j := by
  have hlength := congrArg (fun s => s.toList.length) h
  simpa [floodName] using hlength

/-- Each failure is at a new key and evicts nothing. -/
theorem flooded_attempts (n : ℕ) : (flooded n).attempts.length = n ∧
    ∀ e ∈ (flooded n).attempts, ∃ i < n, e.1 = loginKey "192.0.2.1" (floodName i) := by
  induction n with
  | zero => exact ⟨rfl, fun e he => (List.not_mem_nil he).elim⟩
  | succ n ih =>
      obtain ⟨hlength, hkeys⟩ := ih
      have hnew : InsertionMap.get (loginKey "192.0.2.1" (floodName n)) (flooded n).attempts =
          none := by
        refine InsertionMap.get_eq_none_iff.mpr fun e he heq => ?_
        obtain ⟨i, hi, hkey⟩ := hkeys e he
        exact hi.ne (floodName_inj (loginKey_inj (hkey.symm.trans heq)))
      have hnext : (flooded (n + 1)).attempts =
          InsertionMap.set (loginKey "192.0.2.1" (floodName n)) ⟨1, (flooded n).clock, none⟩
            (flooded n).attempts := by
        simp only [flooded, loginStep, Option.getD_some, recordLoginFailure, hnew]
      rw [hnext]
      refine ⟨by simp [InsertionMap.length_set, hnew, hlength], fun e he => ?_⟩
      rcases InsertionMap.mem_of_mem_set he with he | rfl
      · obtain ⟨i, hi, hkey⟩ := hkeys e he
        exact ⟨i, by omega, hkey⟩
      · exact ⟨n, by omega, rfl⟩

/-- With one name more than the map may hold, the map holds them all. -/
theorem login_attempts_flooded :
    Reach loginStep free .start (flooded 20001) ∧ ¬LoginAttemptsSafe (flooded 20001) := by
  refine ⟨reach_flooded 20001, fun hsafe => ?_⟩
  have hbounded := hsafe.bounded
  rw [(flooded_attempts 20001).1] at hbounded
  exact absurd hbounded (by decide)

end Incudal
