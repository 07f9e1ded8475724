/-
# `TaskOwnership` — who may move an instance task

Over whole runs a task is claimed at most once: the host's lock keeps two
claims of one task apart, and no row returns to pending.  What a single step
may do to a row is read off `TaskChange`.  Two writes name the row by its id
alone, the mark of a claim and the cancellation; where the row has changed
since they read it they take it from its owner or out of its final status
(`taskStep_safe` is about the runs in which it has not).
-/
import Incudal.TaskRuns

namespace Incudal

/-! ## What is safe -/

/-- A step leaves a claimed task in `PROCESSING` unless the holder of its token
finishes it under an unexpired lease, or an administrator's forced recovery
takes it after the lease has expired; a user's cancellation meets only tasks
that have not been claimed; a finished row stays as it is until it is removed. -/
structure TaskStepSafe (w : TaskWorld) (e : TaskEvent) (w' : TaskWorld) : Prop where
  released : ∀ id, ∀ task ∈ w.db.instanceTask id, task.status = .processing →
    (∃ task' ∈ w'.db.instanceTask id, task'.status = .processing) ∨
    (∃ token outcome, e = .finish id token outcome ∧ task.executionToken = some token ∧
      ∃ lease ∈ task.leaseExpiresAt, w.now < lease) ∨
    (∃ recovery, e = .writeRecover recovery ∧ recovery.task.id = id ∧ recovery.isAdmin = true ∧
      recovery.force = true ∧ ∀ lease ∈ task.leaseExpiresAt, lease ≤ w.now)
  cancelled : ∀ id, e = .writeCancel id → .instanceTask id ∉ w.claimed
  kept : ∀ id, ∀ task ∈ w.db.instanceTask id, task.status = .completed ∨ task.status = .failed →
    w'.db.instanceTask id = some task ∨ w'.db.instanceTask id = none

/-! ## The invariant -/

section Ownership

variable {w₀ w w' : TaskWorld} {e : TaskEvent}

structure TaskInv (w : TaskWorld) : Prop where
  ids : (w.db.instanceTasks.map InstanceTask.id).Nodup
  old : ∀ t ∈ w.db.instanceTasks, t.id < w.db.nextId
  claimedOld : ∀ id, .instanceTask id ∈ w.claimed → id < w.db.nextId
  claimedRow : ∀ id, .instanceTask id ∈ w.claimed → ∀ task ∈ w.db.instanceTask id,
    task.status ≠ .pending
  claimsOld : ∀ c ∈ w.claims, ∀ id, c.key = .instanceTask id → id < w.db.nextId
  claimsRow : ∀ c ∈ w.claims, ∀ id, c.key = .instanceTask id → ∀ task ∈ w.db.instanceTask id,
    task.hostId = c.hostId
  claimsNew : ∀ c ∈ w.claims, ∀ id, c.key = .instanceTask id → .instanceTask id ∉ w.claimed
  hosts : (w.claims.map TaskClaim.hostId).Nodup
  keys : ∀ c ∈ w.claims, ∀ c' ∈ w.claims, ∀ id, c.key = .instanceTask id →
    c'.key = .instanceTask id → c = c'
  once : ∀ id, w.claimed.count (.instanceTask id) ≤ 1

theorem inv_taskStart (h : w.TaskStart) : TaskInv w := by
  refine ⟨?_, ?_, ?_, ?_, ?_, ?_, ?_, ?_, ?_, ?_⟩
  · simp [h.instanceTasks]
  · simp [h.instanceTasks]
  · simp [h.claimed]
  · simp [h.claimed]
  · simp [h.claims]
  · simp [h.claims]
  · simp [h.claims]
  · simp [h.claims]
  · simp [h.claims]
  · simp [h.claimed]

/-- A row keeps its host, and never becomes pending again. -/
theorem TaskChange.row {id : ℕ} {before after : Option InstanceTask}
    (h : TaskChange w e id before after) :
    ∀ task' ∈ after, (before = none ∧ id = w.db.nextId) ∨
      ∃ task ∈ before, task'.hostId = task.hostId ∧
        (task'.status = .pending → task.status = .pending) := by
  intro task' h'
  cases h with
  | same => exact .inr ⟨task', h', rfl, fun hp => hp⟩
  | created new status => exact .inl ⟨rfl, new⟩
  | deleted finished => cases h'
  | edited before after same token =>
      cases h'
      exact .inr ⟨_, rfl, same.hostId, fun hp => by rw [after] at hp; cases hp⟩
  | finished event active same after =>
      cases h'
      exact .inr ⟨_, rfl, same.hostId, fun hp => by rw [hp] at after; cases after⟩
  | recovered event found addressed before forced same after =>
      cases h'
      exact .inr ⟨_, rfl, same.hostId, fun hp => by rw [after] at hp; cases hp⟩
  | cancelled event same after =>
      cases h'
      exact .inr ⟨_, rfl, same.hostId, fun hp => by rw [after] at hp; cases hp⟩
  | marked event key same after token =>
      cases h'
      exact .inr ⟨_, rfl, same.hostId, fun hp => by rw [after] at hp; cases hp⟩

/-- The tables of instance tasks grow by new ids only. -/
structure TableGrows (w w' : TaskWorld) : Prop where
  ids : (w.db.instanceTasks.map InstanceTask.id).Nodup →
    (∀ t ∈ w.db.instanceTasks, t.id < w.db.nextId) →
    (w'.db.instanceTasks.map InstanceTask.id).Nodup ∧
      (∀ t ∈ w'.db.instanceTasks, t.id < w'.db.nextId)
  nextId : w.db.nextId ≤ w'.db.nextId

theorem tableGrows_of_eq (h : w'.db.instanceTasks = w.db.instanceTasks)
    (hnext : w.db.nextId ≤ w'.db.nextId) : TableGrows w w' where
  ids hn hold := by
    rw [h]
    exact ⟨hn, fun t ht => (hold t ht).trans_le hnext⟩
  nextId := hnext

theorem tableGrows_update {p : InstanceTask → Bool} {f : InstanceTask → InstanceTask}
    (hdb : w'.db = w.db.updateInstanceTasks p f) (hf : ∀ t, (f t).id = t.id) :
    TableGrows w w' where
  ids hn hold := by
    have hmap : w'.db.instanceTasks.map InstanceTask.id
        = w.db.instanceTasks.map InstanceTask.id := by
      rw [hdb]
      simp only [TaskDb.updateInstanceTasks, List.map_map]
      refine List.map_congr_left fun t _ => ?_
      simp only [Function.comp_apply]
      split
      · exact hf t
      · rfl
    refine ⟨hmap ▸ hn, fun t ht => ?_⟩
    have hid : t.id ∈ w.db.instanceTasks.map InstanceTask.id := hmap ▸ List.mem_map_of_mem ht
    obtain ⟨r, hr, hrt⟩ := List.mem_map.mp hid
    rw [← hrt, hdb]
    exact hold r hr
  nextId := by rw [hdb]; exact le_rfl

theorem tableGrows_filter {p : InstanceTask → Bool}
    (h : w'.db.instanceTasks = w.db.instanceTasks.filter p) (hnext : w'.db.nextId = w.db.nextId) :
    TableGrows w w' where
  ids hn hold := by
    rw [h, hnext]
    exact ⟨hn.sublist (List.Sublist.map _ List.filter_sublist),
      fun t ht => hold t (List.mem_of_mem_filter ht)⟩
  nextId := hnext.ge

theorem tableGrows_of_step (hs : taskStep w e = some w') : TableGrows w w' := by
  cases e with
  | createInstanceTask i h u type =>
      obtain ⟨db, hdb, rfl⟩ := Option.map_eq_some_iff.mp hs
      unfold createInstanceTask at hdb
      split at hdb
      · cases hdb
      cases hdb
      refine ⟨fun hn hold => ⟨?_, ?_⟩, Nat.le_succ _⟩
      · refine Keyed.nodup_append_singleton hn ?_
        intro t ht
        exact (hold t ht).ne
      · exact Keyed.below_concat hold (Nat.le_succ _) (Nat.lt_succ_self _)
  | createHostTask queue i h u =>
      obtain ⟨db, hdb, rfl⟩ := Option.map_eq_some_iff.mp hs
      unfold createHostTask at hdb
      split at hdb
      · cases hdb
      cases hdb
      exact tableGrows_of_eq rfl (Nat.le_succ _)
  | claimLight h k =>
      obtain ⟨c, -, -, rfl⟩ := takeLocks_eq hs
      exact tableGrows_of_eq rfl le_rfl
  | claimNext h k =>
      obtain ⟨c, -, -, rfl⟩ := takeLocks_eq hs
      exact tableGrows_of_eq rfl le_rfl
  | claimNextHost queue h k =>
      obtain ⟨c, -, -, rfl⟩ := takeLocks_eq hs
      exact tableGrows_of_eq rfl le_rfl
  | mark claim token =>
      simp only [taskStep] at hs
      split at hs
      · obtain ⟨db, hdb, rfl⟩ := Option.map_eq_some_iff.mp hs
        unfold markProcessing at hdb
        split at hdb
        · split at hdb
          · cases hdb
          split at hdb
          · cases hdb
          split at hdb
          · cases hdb
          cases hdb
          exact tableGrows_update rfl fun _ => rfl
        · split at hdb
          · cases hdb
          split at hdb
          · cases hdb
          cases hdb
          exact tableGrows_of_eq rfl le_rfl
      · cases hs
  | store k token data =>
      cases hs
      exact tableGrows_update rfl fun t => (id_store data t).1
  | finish k token outcome =>
      cases hs
      exact tableGrows_update rfl fun t => (id_finish outcome w.now t).1
  | renew | lostLease | sweepStale | sweepTimeout =>
      cases hs
      exact tableGrows_update rfl fun _ => rfl
  | readCancel k =>
      simp only [taskStep] at hs
      split at hs
      · cases hs
        exact tableGrows_of_eq rfl le_rfl
      · cases hs
  | writeCancel k =>
      simp only [taskStep] at hs
      split at hs
      · obtain ⟨db, hdb, rfl⟩ := Option.map_eq_some_iff.mp hs
        unfold cancelInstanceTask at hdb
        split at hdb
        · cases hdb
        cases hdb
        exact tableGrows_update rfl fun _ => rfl
      · cases hs
  | readRecover k isAdmin force =>
      obtain ⟨task, -, rfl⟩ := Option.map_eq_some_iff.mp hs
      exact tableGrows_of_eq rfl le_rfl
  | writeRecover r =>
      simp only [taskStep] at hs
      split at hs
      · obtain ⟨db, hdb, rfl⟩ := Option.map_eq_some_iff.mp hs
        unfold recoverInstanceTask at hdb
        split at hdb
        · cases hdb
        split at hdb
        · cases hdb
        cases hdb
        exact tableGrows_update rfl fun _ => rfl
      · cases hs
  | cleanupOld | deleteFinished =>
      cases hs
      exact tableGrows_filter rfl rfl
  | finishHost ex queue k result =>
      simp only [taskStep] at hs
      split at hs
      · obtain ⟨db, hdb, rfl⟩ := Option.map_eq_some_iff.mp hs
        unfold finishHostTask at hdb
        split at hdb
        · cases hdb
        split at hdb
        · split at hdb
          · cases hdb
            exact tableGrows_of_eq rfl le_rfl
          · cases hdb
        · cases hdb
          exact tableGrows_of_eq rfl le_rfl
      · cases hs
  | advance now =>
      simp only [taskStep] at hs
      split at hs
      · cases hs
        exact tableGrows_of_eq rfl le_rfl
      · cases hs
  | _ => cases hs; exact tableGrows_of_eq rfl le_rfl

/-- What a step does to the claims under way and to the history of claims. -/
inductive ClaimChange (w : TaskWorld) (e : TaskEvent) (w' : TaskWorld) : Prop
  | same (claims : w'.claims = w.claims) (claimed : w'.claimed = w.claimed)
  | begun {c : TaskClaim} (db : w'.db = w.db) (free : w.locksFree c = true)
      (claims : w'.claims = c :: w.claims) (claimed : w'.claimed = w.claimed)
      (checked : c.Checked w.db)
  | marked {c : TaskClaim} (mem : c ∈ w.claims) (claims : w'.claims = w.claims.erase c)
      (claimed : w'.claimed = c.key :: w.claimed)
      (row : ∀ id, c.key = .instanceTask id → ∃ task ∈ w'.db.instanceTask id,
        task.status = .processing)
  | abandoned (c : TaskClaim) (claims : w'.claims = w.claims.erase c)
      (claimed : w'.claimed = w.claimed)

/-- The row that a mark of an instance task leaves. -/
theorem markProcessing_row {db db' : TaskDb} {now : Time} {token : String} {k : ℕ}
    (h : markProcessing db now token (.instanceTask k) = some db') :
    ∃ task ∈ db.instanceTask k, db'.instanceTask k = some (task.markProcessing now token) := by
  simp only [markProcessing] at h
  split at h
  · cases h
  rename_i task htask
  split at h
  · cases h
  split at h
  · cases h
  cases h
  refine ⟨task, htask, ?_⟩
  rw [instanceTask_updateInstanceTasks (f := (·.markProcessing now token)) fun _ => rfl, htask]
  simp [id_of_instanceTask htask]

theorem claimChange_of_step (hs : taskStep w e = some w') : ClaimChange w e w' := by
  cases e with
  | claimLight h k =>
      obtain ⟨c, hc, hfree, rfl⟩ := takeLocks_eq hs
      exact .begun rfl hfree rfl rfl (claimLightTask_checked hc)
  | claimNext h k =>
      obtain ⟨c, hc, hfree, rfl⟩ := takeLocks_eq hs
      exact .begun rfl hfree rfl rfl (claimNextTask_checked hc)
  | claimNextHost queue h k =>
      obtain ⟨c, hc, hfree, rfl⟩ := takeLocks_eq hs
      exact .begun rfl hfree rfl rfl (claimNextHostTask_checked hc)
  | mark claim token =>
      simp only [taskStep] at hs
      split at hs
      · rename_i hmem
        obtain ⟨db, hdb, rfl⟩ := Option.map_eq_some_iff.mp hs
        refine .marked hmem rfl rfl fun id hid => ?_
        rw [hid] at hdb
        obtain ⟨task, -, hrow⟩ := markProcessing_row hdb
        exact ⟨_, hrow, rfl⟩
      · cases hs
  | abandon claim =>
      cases hs
      exact .abandoned claim rfl rfl
  | createInstanceTask i h u type =>
      obtain ⟨db, -, rfl⟩ := Option.map_eq_some_iff.mp hs
      exact .same rfl rfl
  | createHostTask queue i h u =>
      obtain ⟨db, -, rfl⟩ := Option.map_eq_some_iff.mp hs
      exact .same rfl rfl
  | readRecover k isAdmin force =>
      obtain ⟨task, -, rfl⟩ := Option.map_eq_some_iff.mp hs
      exact .same rfl rfl
  | advance | readCancel =>
      simp only [taskStep] at hs
      split at hs
      · cases hs
        exact .same rfl rfl
      · cases hs
  | writeCancel | writeRecover | finishHost =>
      simp only [taskStep] at hs
      split at hs
      · obtain ⟨db, -, rfl⟩ := Option.map_eq_some_iff.mp hs
        exact .same rfl rfl
      · cases hs
  | _ => cases hs; exact .same rfl rfl

/-- A claim under way that survives a step was under way before. -/
theorem mem_claims_erase {c c' : TaskClaim} (hn : (w.claims.map TaskClaim.hostId).Nodup)
    (h : c ∈ w.claims.erase c') : c ∈ w.claims ∧ c ≠ c' :=
  have hnodup : w.claims.Nodup := List.Nodup.of_map _ hn
  ⟨List.mem_of_mem_erase h, fun he => (hnodup.mem_erase_iff.mp h).1 he⟩

theorem inv_taskStep (hinv : TaskInv w) (hs : taskStep w e = some w') : TaskInv w' := by
  have hgrows := tableGrows_of_step hs
  have hchange : ∀ id, TaskChange w e id (w.db.instanceTask id) (w'.db.instanceTask id) :=
    fun _ => taskChange_of_step hinv.ids hinv.old hs
  obtain ⟨hids, hold⟩ := hgrows.ids hinv.ids hinv.old
  -- rows of tasks known before: same host, and pending only if they were
  have hrow : ∀ id, id < w.db.nextId → ∀ task' ∈ w'.db.instanceTask id,
      ∃ task ∈ w.db.instanceTask id, task'.hostId = task.hostId ∧
        (task'.status = .pending → task.status = .pending) := by
    intro id hid task' htask'
    rcases (hchange id).row task' htask' with ⟨-, hnew⟩ | h
    · omega
    · exact h
  have hclaimedRow : ∀ id, .instanceTask id ∈ w.claimed → ∀ task ∈ w'.db.instanceTask id,
      task.status ≠ .pending := by
    intro id hid task' htask' hpending
    obtain ⟨task, htask, -, hp⟩ := hrow id (hinv.claimedOld id hid) task' htask'
    exact hinv.claimedRow id hid task htask (hp hpending)
  have hclaimsRow : ∀ c ∈ w.claims, ∀ id, c.key = .instanceTask id →
      ∀ task ∈ w'.db.instanceTask id, task.hostId = c.hostId := by
    intro c hc id hid task' htask'
    obtain ⟨task, htask, hhost, -⟩ := hrow id (hinv.claimsOld c hc id hid) task' htask'
    rw [hhost]
    exact hinv.claimsRow c hc id hid task htask
  have hclaimedOld : ∀ id, .instanceTask id ∈ w.claimed → id < w'.db.nextId :=
    fun id hid => (hinv.claimedOld id hid).trans_le hgrows.nextId
  have hclaimsOld : ∀ c ∈ w.claims, ∀ id, c.key = .instanceTask id → id < w'.db.nextId :=
    fun c hc id hid => (hinv.claimsOld c hc id hid).trans_le hgrows.nextId
  cases claimChange_of_step hs with
  | same claims claimed =>
      rw [← claims] at hclaimsRow hclaimsOld
      rw [← claimed] at hclaimedRow hclaimedOld
      exact ⟨hids, hold, hclaimedOld, hclaimedRow, hclaimsOld, hclaimsRow,
        by rw [claims, claimed]; exact hinv.claimsNew, by rw [claims]; exact hinv.hosts,
        by rw [claims]; exact hinv.keys, by rw [claimed]; exact hinv.once⟩
  | abandoned c claims claimed =>
      have hsub : ∀ c' ∈ w'.claims, c' ∈ w.claims := by
        rw [claims]
        exact fun c' hc' => List.mem_of_mem_erase hc'
      rw [← claimed] at hclaimedRow hclaimedOld
      refine ⟨hids, hold, hclaimedOld, hclaimedRow, fun c' hc' => hclaimsOld c' (hsub c' hc'),
        fun c' hc' => hclaimsRow c' (hsub c' hc'), ?_, ?_,
        fun c' hc' d hd => hinv.keys c' (hsub c' hc') d (hsub d hd),
        by rw [claimed]; exact hinv.once⟩
      · rw [claimed]
        exact fun c' hc' => hinv.claimsNew c' (hsub c' hc')
      · rw [claims]
        exact hinv.hosts.sublist (List.Sublist.map _ List.erase_sublist)
  | @begun c db free claims claimed checked =>
      have row : ∀ id, c.key = .instanceTask id → ∃ task ∈ w.db.instanceTask id,
          task.status = .pending ∧ task.hostId = c.hostId := by
        intro id hid
        obtain ⟨r, hr, hpending, hhost⟩ := checked.row
        rw [hid] at hr
        obtain ⟨task, htask, rfl⟩ := Option.map_eq_some_iff.mp hr
        exact ⟨task, htask, hpending, hhost⟩
      have hfree : ∀ c' ∈ w.claims, c'.hostId ≠ c.hostId := by
        intro c' hc'
        have := List.all_eq_true.mp free c' hc'
        simp only [Bool.and_eq_true, bne_iff_ne, ne_eq] at this
        exact this.1
      -- an older claim of the same task would hold the same host's lock
      have hother : ∀ c' ∈ w.claims, ∀ id, c.key = .instanceTask id →
          c'.key ≠ .instanceTask id := by
        intro c' hc' id hid hid'
        obtain ⟨task, htask, -, hhost⟩ := row id hid
        exact hfree c' hc' ((hinv.claimsRow c' hc' id hid' task htask).symm.trans hhost)
      have hmem : ∀ c' ∈ w'.claims, c' = c ∨ c' ∈ w.claims := by
        rw [claims]
        exact fun c' hc' => List.mem_cons.mp hc'
      rw [← claimed] at hclaimedRow hclaimedOld
      refine ⟨hids, hold, hclaimedOld, hclaimedRow, ?_, ?_, ?_, ?_, ?_,
        by rw [claimed]; exact hinv.once⟩
      · intro c' hc' id hid
        rcases hmem c' hc' with rfl | hc'
        · obtain ⟨task, htask, -⟩ := row id hid
          obtain ⟨hin, rfl⟩ := Keyed.mem_of_lookup htask
          exact (hinv.old task hin).trans_le hgrows.nextId
        · exact hclaimsOld c' hc' id hid
      · intro c' hc' id hid
        rcases hmem c' hc' with rfl | hc'
        · intro task' htask'
          obtain ⟨task, htask, -, hhost⟩ := row id hid
          rw [db] at htask'
          rw [Option.mem_unique htask' htask]
          exact hhost
        · exact hclaimsRow c' hc' id hid
      · intro c' hc' id hid
        rw [claimed]
        rcases hmem c' hc' with rfl | hc'
        · obtain ⟨task, htask, hpending, -⟩ := row id hid
          exact fun hin => hinv.claimedRow id hin task htask hpending
        · exact hinv.claimsNew c' hc' id hid
      · rw [claims, List.map_cons, List.nodup_cons]
        refine ⟨fun hin => ?_, hinv.hosts⟩
        obtain ⟨c', hc', hhost⟩ := List.mem_map.mp hin
        exact hfree c' hc' hhost
      · intro c' hc' d hd id hid hid'
        rcases hmem c' hc' with rfl | hc'
        · rcases hmem d hd with rfl | hd
          · rfl
          · exact absurd hid' (hother d hd id hid)
        · rcases hmem d hd with rfl | hd
          · exact absurd hid (hother c' hc' id hid')
          · exact hinv.keys c' hc' d hd id hid hid'
  | @marked c mem claims claimed row =>
      have hmem : ∀ c' ∈ w'.claims, c' ∈ w.claims ∧ c' ≠ c := by
        rw [claims]
        exact fun c' hc' => mem_claims_erase hinv.hosts hc'
      have hclaimed : ∀ id, .instanceTask id ∈ w'.claimed →
          c.key = .instanceTask id ∨ .instanceTask id ∈ w.claimed := by
        rw [claimed]
        exact fun id hid => (List.mem_cons.mp hid).imp_left Eq.symm
      refine ⟨hids, hold, ?_, ?_, fun c' hc' => hclaimsOld c' (hmem c' hc').1,
        fun c' hc' => hclaimsRow c' (hmem c' hc').1, ?_, ?_,
        fun c' hc' d hd => hinv.keys c' (hmem c' hc').1 d (hmem d hd).1, ?_⟩
      · intro id hid
        rcases hclaimed id hid with hkey | hid
        · exact hclaimsOld c mem id hkey
        · exact hclaimedOld id hid
      · intro id hid
        rcases hclaimed id hid with hkey | hid
        · intro task' htask' hpending
          obtain ⟨task, htask, hprocessing⟩ := row id hkey
          rw [Option.mem_unique htask' htask, hprocessing] at hpending
          cases hpending
        · exact hclaimedRow id hid
      · intro c' hc' id hid hin
        rcases hclaimed id hin with hkey | hin
        · exact (hmem c' hc').2 (hinv.keys c' (hmem c' hc').1 c mem id hid hkey)
        · exact hinv.claimsNew c' (hmem c' hc').1 id hid hin
      · rw [claims]
        exact hinv.hosts.sublist (List.Sublist.map _ List.erase_sublist)
      · intro id
        rw [claimed, List.count_cons]
        split
        · rename_i hkey
          have hnew := hinv.claimsNew c mem id (by simpa using hkey)
          rw [List.count_eq_zero_of_not_mem hnew]
        · exact hinv.once id

theorem pending_of_cancel {id : ℕ} {task : InstanceTask}
    (hok : readsStillHold w (.writeCancel id) = true) (htask : w.db.instanceTask id = some task) :
    task.status = .pending := by
  simpa [readsStillHold, htask] using hok

theorem pending_of_mark {id : ℕ} {task : InstanceTask} {claim : TaskClaim} {token : String}
    (hok : readsStillHold w (.mark claim token) = true) (hkey : claim.key = .instanceTask id)
    (htask : w.db.instanceTask id = some task) : task.status = .pending := by
  simpa [readsStillHold, hkey, htask] using hok

theorem stepSafe_of_inv (hinv : TaskInv w) (hok : readsStillHold w e = true)
    (hs : taskStep w e = some w') : TaskStepSafe w e w' := by
  have hchange : ∀ id, TaskChange w e id (w.db.instanceTask id) (w'.db.instanceTask id) :=
    fun _ => taskChange_of_step hinv.ids hinv.old hs
  refine ⟨?_, ?_, ?_⟩
  · intro id task htask hprocessing
    have hc := hchange id
    rw [Option.mem_def.mp htask] at hc
    cases hafter : w'.db.instanceTask id with
    | none =>
        rw [hafter] at hc
        cases hc with
        | deleted finished => simp [hprocessing, TaskStatus.isActive] at finished
    | some task' =>
        rw [hafter] at hc
        cases hc with
        | same => exact .inl ⟨task, rfl, hprocessing⟩
        | edited before after same token => exact .inl ⟨task', rfl, after⟩
        | @finished _ _ token outcome event active same after =>
            simp only [InstanceTask.activeExecution, Bool.and_eq_true, beq_iff_eq] at active
            obtain ⟨lease, hlease, hlt⟩ := (Option.any_eq_true _ _).mp active.2
            exact .inr (.inl ⟨token, outcome, event, active.1.2, lease, hlease, by simpa using hlt⟩)
        | @recovered _ _ r event found addressed before forced same after =>
            obtain ⟨hadmin, hforce, hlease⟩ := forced hprocessing
            refine .inr (.inr ⟨r, event, found, hadmin, hforce, fun lease hl => ?_⟩)
            rw [Option.mem_def.mp hl] at hlease
            simpa using hlease
        | cancelled event same after =>
            subst event
            rw [pending_of_cancel hok htask] at hprocessing
            cases hprocessing
        | marked event key same after token => exact .inl ⟨task', rfl, after⟩
  · rintro id rfl hclaimed
    simp only [taskStep] at hs
    split at hs
    · obtain ⟨db, hdb, rfl⟩ := Option.map_eq_some_iff.mp hs
      unfold cancelInstanceTask at hdb
      split at hdb
      · cases hdb
      rename_i task htask
      exact hinv.claimedRow id hclaimed task htask (pending_of_cancel hok htask)
    · cases hs
  · intro id task htask hdone
    have hc := hchange id
    rw [Option.mem_def.mp htask] at hc
    cases hafter : w'.db.instanceTask id with
    | none => exact .inr rfl
    | some task' =>
        rw [hafter] at hc
        left
        cases hc with
        | same => rfl
        | edited before after same token => rcases hdone with h | h <;> rw [before] at h <;> cases h
        | finished event active same after =>
            have := processing_of_activeExecution active
            rcases hdone with h | h <;> rw [this] at h <;> cases h
        | recovered event found addressed before forced same after =>
            rcases hdone with h | h <;> rw [h] at before <;> cases before
        | cancelled event same after =>
            subst event
            rw [pending_of_cancel hok htask] at hdone
            rcases hdone with h | h <;> cases h
        | marked event key same after token =>
            subst event
            rw [pending_of_mark hok key htask] at hdone
            rcases hdone with h | h <;> cases h

/-- In every run in which marks and cancellations find the row as they have
read it, each task is claimed at most once, and every such step is safe. -/
theorem taskStep_safe (hstart : w₀.TaskStart)
    (hrun : Machine.Reach taskStep (readsStillHold · ·) w₀ w) :
    (∀ id, w.claimed.count (.instanceTask id) ≤ 1) ∧
      ∀ e w', readsStillHold w e = true → taskStep w e = some w' → TaskStepSafe w e w' := by
  have hinv : TaskInv w :=
    hrun.invariant (inv_taskStart hstart) fun hinv _ hs => inv_taskStep hinv hs
  exact ⟨hinv.once, fun _ _ => stepSafe_of_inv hinv⟩

/-! ## Two runs -/

/-- An idle system with one instance. -/
def idleTasks : TaskWorld :=
  { db :=
      { instanceTasks := []
        hostTasks := fun _ => []
        instanceStatus := fun i => if i = 7 then some .running else none
        nextId := 1 }
    now := 0 }

theorem idleTasks_start : idleTasks.TaskStart := ⟨rfl, fun _ => rfl, rfl, rfl, rfl, rfl⟩

/-- The claim of the restart of that instance. -/
def restartClaim : TaskClaim := { key := .instanceTask 1, hostId := 3, instanceId := 7 }

/-- A restart is created, claimed and executed. -/
theorem taskStep_safe_restart :
    ∃ w, Machine.Reach taskStep (readsStillHold · ·) idleTasks w ∧
      (w.db.instanceTask 1).map (·.status) = some .completed ∧
      w.claimed.count (.instanceTask 1) ≤ 1 := by
  have hexec : (Machine.exec (Machine.guarded taskStep readsStillHold) idleTasks
      [.createInstanceTask 7 3 1 .restart, .claimLight 3 1, .mark restartClaim "t",
        .finish 1 "t" .completed]).map (fun w => (w.db.instanceTask 1).map (·.status))
      = some (some .completed) := by decide +kernel
  obtain ⟨w, hw, hstatus⟩ := Option.map_eq_some_iff.mp hexec
  have hrun := Machine.reach_of_exec_guarded hw
  exact ⟨w, hrun, hstatus, (taskStep_safe idleTasks_start hrun).1 1⟩

/-- The user's cancellation reads the row before the claim and writes it after:
the running task is marked as failed. -/
theorem cancellation_takes_claimed_task :
    ∃ w w', Machine.Reach taskStep Machine.free idleTasks w ∧
      taskStep w (.writeCancel 1) = some w' ∧ ¬ TaskStepSafe w (.writeCancel 1) w' := by
  have hexec : ((Machine.exec taskStep idleTasks
      [.createInstanceTask 7 3 1 .restart, .readCancel 1, .claimLight 3 1,
        .mark restartClaim "t"]).bind fun w =>
          (taskStep w (.writeCancel 1)).map fun _ => decide (.instanceTask 1 ∈ w.claimed))
      = some true := by decide +kernel
  obtain ⟨w, hw, hstep⟩ := Option.bind_eq_some_iff.mp hexec
  obtain ⟨w', hw', hclaimed⟩ := Option.map_eq_some_iff.mp hstep
  refine ⟨w, w', Machine.reach_of_exec hw, hw', fun hsafe => ?_⟩
  exact hsafe.cancelled 1 rfl (of_decide_eq_true hclaimed)

end Ownership

end Incudal
