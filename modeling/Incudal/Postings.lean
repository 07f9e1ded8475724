/-
# `Postings` — what a transaction appends to the two ledgers

Every change of a user's balance goes with a row of the balance log, and every
charge or refund of an instance with a billing record.  `Posting db db' logs
records` says that a transaction has led from `db` to `db'` by appending
exactly these rows, each under a fresh id, and by changing each balance by the
sum of its user's new logs.  Postings compose (`Posting.trans`), so the effect
of an operation is put together from those of its elementary writes.
-/
import Incudal.Hosting

namespace Incudal

/-- The balance of a user; a user that does not exist has none. -/
def Db.balanceOf (db : Db) (userId : ℕ) : Units := ((db.users userId).map (·.balance)).getD 0

/-- What the logs of a user add up to. -/
def logSum (userId : ℕ) (logs : List BalanceLog) : Units :=
  Keyed.total (fun log => if log.userId = userId then log.amount else 0) logs

@[simp] theorem logSum_nil (userId : ℕ) : logSum userId [] = 0 := rfl

@[simp] theorem logSum_append (userId : ℕ) (logs logs' : List BalanceLog) :
    logSum userId (logs ++ logs') = logSum userId logs + logSum userId logs' := by
  simp [logSum]

@[simp] theorem logSum_singleton (userId : ℕ) (log : BalanceLog) :
    logSum userId [log] = if log.userId = userId then log.amount else 0 := by
  simp [logSum]

/-- The rows under fresh ids: each id once, from `lo` on and below `hi`. -/
structure FreshIds (ids : List ℕ) (lo hi : ℕ) : Prop where
  nodup : ids.Nodup
  range : ∀ i ∈ ids, lo ≤ i ∧ i < hi

theorem FreshIds.nil (lo hi : ℕ) : FreshIds [] lo hi := ⟨List.nodup_nil, by simp⟩

theorem FreshIds.singleton {i lo hi : ℕ} (hlo : lo ≤ i) (hhi : i < hi) : FreshIds [i] lo hi :=
  ⟨List.nodup_singleton i, by simpa using ⟨hlo, hhi⟩⟩

theorem FreshIds.append {ids ids' : List ℕ} {lo mid hi : ℕ} (h : FreshIds ids lo mid)
    (h' : FreshIds ids' mid hi) (hlo : lo ≤ mid) (hhi : mid ≤ hi) :
    FreshIds (ids ++ ids') lo hi := by
  refine ⟨List.nodup_append.mpr ⟨h.nodup, h'.nodup, fun a ha b hb => ?_⟩, fun i hi' => ?_⟩
  · have := (h.range a ha).2
    have := (h'.range b hb).1
    omega
  · rcases List.mem_append.mp hi' with hm | hm
    · have := h.range i hm
      omega
    · have := h'.range i hm
      omega

/-- Exactly these rows have been appended, and the balances follow the logs. -/
structure Posting (db db' : Db) (logs : List BalanceLog) (records : List BillingRecord) : Prop where
  balanceLogs : db'.balanceLogs = db.balanceLogs ++ logs
  billingRecords : db'.billingRecords = db.billingRecords ++ records
  balance : ∀ u, db'.balanceOf u = db.balanceOf u + logSum u logs
  logIds : FreshIds (logs.map BalanceLog.id) db.nextId db'.nextId
  recordIds : FreshIds (records.map BillingRecord.id) db.nextId db'.nextId
  nextId : db.nextId ≤ db'.nextId
  history : db'.history = db.history
  users : ∀ u, (db'.users u).isSome = (db.users u).isSome

section Compose

variable {db db' db'' : Db} {logs logs' : List BalanceLog} {records records' : List BillingRecord}

theorem Posting.trans (h : Posting db db' logs records) (h' : Posting db' db'' logs' records') :
    Posting db db'' (logs ++ logs') (records ++ records') where
  balanceLogs := by rw [h'.balanceLogs, h.balanceLogs, List.append_assoc]
  billingRecords := by rw [h'.billingRecords, h.billingRecords, List.append_assoc]
  balance u := by rw [h'.balance, h.balance, logSum_append, add_assoc]
  logIds := by
    rw [List.map_append]
    exact h.logIds.append h'.logIds h.nextId h'.nextId
  recordIds := by
    rw [List.map_append]
    exact h.recordIds.append h'.recordIds h.nextId h'.nextId
  nextId := h.nextId.trans h'.nextId
  history := h'.history.trans h.history
  users u := (h'.users u).trans (h.users u)

/-- A step that leaves users, both ledgers, the ids and the history alone posts nothing. -/
theorem Posting.of_eq (husers : db'.users = db.users) (hlogs : db'.balanceLogs = db.balanceLogs)
    (hrecords : db'.billingRecords = db.billingRecords) (hnext : db.nextId ≤ db'.nextId)
    (hhistory : db'.history = db.history) : Posting db db' [] [] where
  balanceLogs := by simpa using hlogs
  billingRecords := by simpa using hrecords
  balance u := by simp [Db.balanceOf, husers]
  logIds := FreshIds.nil _ _
  recordIds := FreshIds.nil _ _
  nextId := hnext
  history := hhistory
  users u := by rw [husers]

theorem Posting.refl (db : Db) : Posting db db [] [] := .of_eq rfl rfl rfl le_rfl rfl

/-- What happens later outside of users, ledgers and history posts nothing more. -/
theorem Posting.keep (h : Posting db db' logs records) (husers : db''.users = db'.users)
    (hlogs : db''.balanceLogs = db'.balanceLogs)
    (hrecords : db''.billingRecords = db'.billingRecords) (hnext : db'.nextId ≤ db''.nextId)
    (hhistory : db''.history = db'.history) : Posting db db'' logs records := by
  simpa only [List.append_nil] using h.trans (.of_eq husers hlogs hrecords hnext hhistory)

/-- A change of a balance with its log. -/
theorem Posting.updateBalance (db : Db) (userId : ℕ) (f : User → User) (log : BalanceLog)
    (hlog : log.userId = userId) (hf : ∀ u, (f u).balance = u.balance + log.amount)
    (huser : (db.users userId).isSome) :
    Posting db ((db.updateUser userId f).createBalanceLog log).1
      [{ log with id := db.nextId }] [] where
  balanceLogs := rfl
  billingRecords := by simp [Db.createBalanceLog, Db.updateUser]
  balance u := by
    obtain ⟨user, huser⟩ := Option.isSome_iff_exists.mp huser
    by_cases hu : u = userId
    · subst hu
      simp [Db.balanceOf, Db.createBalanceLog, Db.updateUser, huser, hf, hlog]
    · have hne : log.userId ≠ u := by rw [hlog]; exact Ne.symm hu
      simp [Db.balanceOf, Db.createBalanceLog, Db.updateUser, hu, hne]
  logIds := FreshIds.singleton le_rfl (Nat.lt_succ_self _)
  recordIds := FreshIds.nil _ _
  nextId := Nat.le_succ _
  history := rfl
  users u := by
    by_cases hu : u = userId
    · subst hu
      simp [Db.createBalanceLog, Db.updateUser]
    · simp [Db.createBalanceLog, Db.updateUser, hu]

/-- A rewrite of a user that leaves the balance alone. -/
theorem Posting.updateUser (db : Db) (userId : ℕ) (f : User → User)
    (hf : ∀ u, (f u).balance = u.balance) : Posting db (db.updateUser userId f) [] [] where
  balanceLogs := by simp [Db.updateUser]
  billingRecords := by simp [Db.updateUser]
  balance u := by
    by_cases hu : u = userId
    · subst hu
      cases h : db.users u <;> simp [Db.balanceOf, Db.updateUser, h, hf]
    · simp [Db.balanceOf, Db.updateUser, hu]
  logIds := FreshIds.nil _ _
  recordIds := FreshIds.nil _ _
  nextId := le_rfl
  history := rfl
  users u := by
    by_cases hu : u = userId
    · subst hu
      simp [Db.updateUser]
    · simp [Db.updateUser, hu]

theorem Posting.createBillingRecord (db : Db) (record : BillingRecord) :
    Posting db (db.createBillingRecord record) [] [{ record with id := db.nextId }] where
  balanceLogs := by simp [Db.createBillingRecord]
  billingRecords := rfl
  balance u := by simp [Db.balanceOf, Db.createBillingRecord]
  logIds := FreshIds.nil _ _
  recordIds := FreshIds.singleton le_rfl (Nat.lt_succ_self _)
  nextId := Nat.le_succ _
  history := rfl
  users _ := rfl

end Compose

/-! ## Hosting income -/

/-- What has been taken back from owners for some instances. -/
def recoveredOver (instanceIds : List ℕ) (logs : List HostingBalanceLog) : Units :=
  Keyed.total (fun log => -log.amount)
    (logs.filter fun log =>
      log.type == .deduction && log.relatedId.any fun k => decide (k ∈ instanceIds))

/-- The income rows for some instances. -/
def incomeOver (instanceIds : List ℕ) (logs : List HostingBalanceLog) : Units :=
  Keyed.total HostingBalanceLog.amount
    (logs.filter fun log => log.type == .income && log.relatedId.any fun k => decide (k ∈ instanceIds))

/-- Who owns which host, and whether an owner is an administrator. -/
structure SameOwners (db db' : Db) : Prop where
  hosts : db'.hosts = db.hosts
  roles : ∀ u, (db'.users u).map (·.role) = (db.users u).map (·.role)

/-- Owners and the hosting log are as they were. -/
structure SameHosting (db db' : Db) : Prop extends SameOwners db db' where
  logs : db'.hostingLogs = db.hostingLogs

section Owners

variable {db db' db'' : Db} {hostId : ℕ} {instanceId : Option ℕ} {allowHistoricalFallback : Bool}

theorem SameOwners.refl (db : Db) : SameOwners db db := ⟨rfl, fun _ => rfl⟩

theorem SameOwners.trans (h : SameOwners db db') (h' : SameOwners db' db'') :
    SameOwners db db'' :=
  ⟨h'.hosts.trans h.hosts, fun u => (h'.roles u).trans (h.roles u)⟩

theorem SameHosting.refl (db : Db) : SameHosting db db := ⟨.refl db, rfl⟩

theorem SameHosting.trans (h : SameHosting db db') (h' : SameHosting db' db'') :
    SameHosting db db'' :=
  ⟨h.toSameOwners.trans h'.toSameOwners, h'.logs.trans h.logs⟩

/-- Rewriting a user keeps roles when the rewrite does. -/
theorem SameHosting.updateUser (db : Db) (userId : ℕ) (f : User → User)
    (hf : ∀ u, (f u).role = u.role) : SameHosting db (db.updateUser userId f) := by
  refine ⟨⟨rfl, fun u => ?_⟩, rfl⟩
  by_cases hu : u = userId
  · subst hu
    cases h : db.users u <;> simp [Db.updateUser, h, hf]
  · simp [Db.updateUser, hu]

/-- Writing to tables other than users, hosts and the hosting log. -/
theorem SameHosting.of_eq (hhosts : db'.hosts = db.hosts) (husers : db'.users = db.users)
    (hlogs : db'.hostingLogs = db.hostingLogs) : SameHosting db db' :=
  ⟨⟨hhosts, fun _ => by rw [husers]⟩, hlogs⟩

/-- Of the users only the roles matter for the owner. -/
theorem resolve_eq (db : Db) (hostId : ℕ) (instanceId : Option ℕ) (allowHistoricalFallback : Bool) :
    resolveHostedIncomeOwner db hostId instanceId allowHistoricalFallback =
      (db.hosts hostId).bind fun host => ((db.users host.userId).map (·.role)).bind fun role =>
        if role ≠ .admin then some host.userId
        else if allowHistoricalFallback then instanceId.bind fun k =>
          (db.hostingLogs.filter fun log =>
            log.relatedId == some k && log.type == .income).getLast?.bind fun log =>
              ((db.users log.userId).map (·.role)).bind fun role =>
                if role = .admin then none else some log.userId
        else none := by
  unfold resolveHostedIncomeOwner
  cases db.hosts hostId with
  | none => rfl
  | some host =>
      dsimp only [Option.bind_some]
      cases db.users host.userId with
      | none => rfl
      | some owner =>
          dsimp only [Option.bind_some, Option.map_some]
          split
          · rfl
          · cases allowHistoricalFallback <;> cases instanceId <;> try rfl
            rename_i k
            dsimp only [if_true, Option.bind_some]
            cases (db.hostingLogs.filter fun log =>
                log.relatedId == some k && log.type == .income).getLast? with
            | none => rfl
            | some log =>
                dsimp only [Option.bind_some]
                cases db.users log.userId <;> rfl

/-- Without the fallback only hosts and roles decide on the owner. -/
theorem SameOwners.resolve (h : SameOwners db db') (hostId : ℕ) :
    resolveHostedIncomeOwner db' hostId none false = resolveHostedIncomeOwner db hostId none false := by
  simp only [resolve_eq, h.hosts, h.roles, Bool.false_eq_true, if_false]

theorem SameHosting.resolve (h : SameHosting db db') (hostId : ℕ) (instanceId : Option ℕ)
    (allowHistoricalFallback : Bool) :
    resolveHostedIncomeOwner db' hostId instanceId allowHistoricalFallback
      = resolveHostedIncomeOwner db hostId instanceId allowHistoricalFallback := by
  simp only [resolve_eq, h.hosts, h.roles, h.logs]

end Owners

/-- A deduction of at most `amount` from an owner for the instance `k`. -/
structure HostingBalanceLog.IsDeduction (log : HostingBalanceLog) (owner : Option ℕ) (k : ℕ)
    (amount : Cents) : Prop where
  type : log.type = .deduction
  owner : owner = some log.userId
  related : log.relatedId = some k
  atMost : -log.amount ≤ max 0 (toUnits amount)

/-- A deduction of at most `amount` for the instance `k`: it adds to what has
been recovered for `k`, only if somebody's income it is, and it writes no
income row. -/
structure HostingTaken (db db' : Db) (hostId k : ℕ) (amount : Cents) : Prop
    extends SameOwners db db' where
  recovered : ∃ taken, 0 ≤ taken ∧ taken ≤ max 0 (toUnits amount) ∧
    (resolveHostedIncomeOwner db hostId (some k) true = none → taken = 0) ∧
    ∀ ids, recoveredOver ids db'.hostingLogs
      = recoveredOver ids db.hostingLogs + if k ∈ ids then taken else 0
  others : ∀ ids, k ∉ ids → incomeOver ids db'.hostingLogs = incomeOver ids db.hostingLogs
  rows : ∀ log ∈ db'.hostingLogs, log.type = .income →
    ∃ log' ∈ db.hostingLogs, log'.type = .income ∧ log'.relatedId = log.relatedId
  /-- no row is added but at most one deduction, and those of before stay -/
  added : ∃ (kept : List HostingBalanceLog) (deduction : Option HostingBalanceLog),
    db'.hostingLogs = kept ++ deduction.toList ∧ kept.length ≤ db.hostingLogs.length ∧
      kept.filter (·.type == .deduction) = db.hostingLogs.filter (·.type == .deduction) ∧
      ∀ log ∈ deduction, log.IsDeduction (resolveHostedIncomeOwner db hostId (some k) true) k amount

section Taken

variable {db db' db'' : Db} {hostId k : ℕ} {amount : Cents}

/-- What comes before may leave owners and the hosting log alone. -/
theorem HostingTaken.of_same (h : SameHosting db db') (h' : HostingTaken db' db'' hostId k amount) :
    HostingTaken db db'' hostId k amount := by
  obtain ⟨taken, hnonneg, hle, hnone, hrecovered⟩ := h'.recovered
  refine { h.toSameOwners.trans h'.toSameOwners with
    recovered := ⟨taken, hnonneg, hle, fun hres => hnone ?_, fun ids => ?_⟩
    others := fun ids hids => ?_
    rows := fun log hlog htype => ?_
    added := ?_ }
  · rw [h.resolve, hres]
  · rw [hrecovered ids, h.logs]
  · rw [h'.others ids hids, h.logs]
  · exact h.logs ▸ h'.rows log hlog htype
  · have hadded := h'.added
    rwa [h.logs, h.resolve] at hadded

/-- What comes after may leave owners and the hosting log alone. -/
theorem HostingTaken.then_same (h : HostingTaken db db' hostId k amount)
    (h' : SameHosting db' db'') : HostingTaken db db'' hostId k amount := by
  obtain ⟨taken, hnonneg, hle, hnone, hrecovered⟩ := h.recovered
  refine { h.toSameOwners.trans h'.toSameOwners with
    recovered := ⟨taken, hnonneg, hle, hnone, fun ids => ?_⟩
    others := fun ids hids => ?_
    rows := fun log hlog htype => ?_
    added := ?_ }
  · rw [h'.logs, hrecovered ids]
  · rw [h'.logs, h.others ids hids]
  · exact h.rows log (h'.logs ▸ hlog) htype
  · rw [h'.logs]
    exact h.added

theorem HostingTaken.refl (db : Db) (hostId k : ℕ) (amount : Cents) :
    HostingTaken db db hostId k amount :=
  { SameOwners.refl db with
    recovered := ⟨0, le_rfl, le_max_left _ _, fun _ => rfl, by simp⟩
    others := fun _ _ => rfl
    rows := fun log hlog htype => ⟨log, hlog, htype, rfl⟩
    added := ⟨db.hostingLogs, none, (List.append_nil _).symm, le_rfl, rfl, by simp⟩ }

end Taken

/-! ## A deduction of hosting income -/

/-- What a deduction of hosting income leaves alone besides the billing records. -/
structure HostingFrame (db db' : Db) : Prop where
  instances : db'.instances = db.instances
  hosts : db'.hosts = db.hosts
  couponUsages : db'.couponUsages = db.couponUsages
  destroyRecords : db'.destroyRecords = db.destroyRecords
  hourlyAccounts : db'.hourlyAccounts = db.hourlyAccounts
  affBindings : db'.affBindings = db.affBindings
  affCodes : db'.affCodes = db.affCodes

section Deduct

variable {db db' : Db} {e : Env} {hostId instanceId owner : ℕ} {amount : Cents}
  {remaining given : Units} {result : Option HostingBalanceDeductionResult}
  {logs logs' : List HostingBalanceLog}

theorem HostingFrame.refl (db : Db) : HostingFrame db db :=
  ⟨rfl, rfl, rfl, rfl, rfl, rfl, rfl⟩

theorem HostingFrame.trans {db'' : Db} (h : HostingFrame db db') (h' : HostingFrame db' db'') :
    HostingFrame db db'' :=
  ⟨h'.instances.trans h.instances, h'.hosts.trans h.hosts,
    h'.couponUsages.trans h.couponUsages, h'.destroyRecords.trans h.destroyRecords,
    h'.hourlyAccounts.trans h.hourlyAccounts, h'.affBindings.trans h.affBindings,
    h'.affCodes.trans h.affCodes⟩

/-- Frozen rows give no more than is asked for. -/
theorem deductFrozen_remaining_nonneg (h : deductFrozen owner instanceId remaining logs = (logs', given))
    (hremaining : 0 ≤ remaining) : 0 ≤ given := by
  induction logs generalizing remaining logs' given with
  | nil =>
      cases h
      exact hremaining
  | cons log logs ih =>
      rw [deductFrozen] at h
      split at h
      · dsimp only at h
        generalize hrest : deductFrozen owner instanceId
          (remaining - min log.amount remaining) logs = rest at h
        obtain ⟨rest, left⟩ := rest
        have hnonneg := ih hrest (sub_nonneg.mpr (min_le_right _ _))
        dsimp only at h
        split at h <;> cases h <;> exact hnonneg
      · generalize hrest : deductFrozen owner instanceId remaining logs = rest at h
        obtain ⟨rest, left⟩ := rest
        cases h
        exact ih hrest hremaining

/-- Nothing asked for, nothing given. -/
theorem deductFrozen_of_nonpos (hremaining : remaining ≤ 0) (logs : List HostingBalanceLog) :
    deductFrozen owner instanceId remaining logs = (logs, remaining) := by
  induction logs with
  | nil => rfl
  | cons log logs ih =>
      rw [deductFrozen, if_neg (fun hpos => not_lt.mpr hremaining hpos.2), ih]

/-- Only income rows of the instance are drawn on, and what is left of them is
income of the instance. -/
theorem deductFrozen_rows (h : deductFrozen owner instanceId remaining logs = (logs', given)) :
    (∀ ids, recoveredOver ids logs' = recoveredOver ids logs) ∧
      (∀ ids, instanceId ∉ ids → incomeOver ids logs' = incomeOver ids logs) ∧
      ∀ log ∈ logs', log.type = .income →
        ∃ log' ∈ logs, log'.type = .income ∧ log'.relatedId = log.relatedId := by
  induction logs generalizing remaining logs' given with
  | nil =>
      cases h
      exact ⟨fun _ => rfl, fun _ _ => rfl, by simp⟩
  | cons log logs ih =>
      rw [deductFrozen] at h
      split at h
      · rename_i hfrozen
        dsimp only at h
        obtain ⟨hincome, hrelated⟩ : log.type = .income ∧ log.relatedId = some instanceId := by
          simp only [HostingBalanceLog.isFrozenIncome, Bool.and_eq_true, beq_iff_eq] at hfrozen
          exact ⟨hfrozen.1.1.2, hfrozen.1.1.1.2⟩
        generalize hrest : deductFrozen owner instanceId
          (remaining - min log.amount remaining) logs = rest at h
        obtain ⟨rest, left⟩ := rest
        obtain ⟨hrecovered, hothers, hrows⟩ := ih hrest
        split at h
        · cases h
          refine ⟨fun ids => ?_, fun ids hids => ?_, fun l hl htype => ?_⟩
          · rw [hrecovered ids]
            simp [recoveredOver, hincome]
          · rw [hothers ids hids]
            simp [incomeOver, hrelated, hids]
          · obtain ⟨l', hl', hsame⟩ := hrows l hl htype
            exact ⟨l', List.mem_cons_of_mem _ hl', hsame⟩
        · cases h
          refine ⟨fun ids => ?_, fun ids hids => ?_, fun l hl htype => ?_⟩
          · have := hrecovered ids
            simp only [recoveredOver] at this ⊢
            simp [hincome, this]
          · have := hothers ids hids
            simp only [incomeOver] at this ⊢
            simp [hrelated, hids, this]
          · rcases List.mem_cons.mp hl with rfl | hl
            · exact ⟨log, List.mem_cons_self, hincome, rfl⟩
            · obtain ⟨l', hl', hsame⟩ := hrows l hl htype
              exact ⟨l', List.mem_cons_of_mem _ hl', hsame⟩
      · generalize hrest : deductFrozen owner instanceId remaining logs = rest at h
        obtain ⟨rest, left⟩ := rest
        obtain ⟨hrecovered, hothers, hrows⟩ := ih hrest
        cases h
        refine ⟨fun ids => ?_, fun ids hids => ?_, fun l hl htype => ?_⟩
        · have := hrecovered ids
          simp only [recoveredOver, List.filter_cons] at this ⊢
          split <;> simp [this]
        · have := hothers ids hids
          simp only [incomeOver, List.filter_cons] at this ⊢
          split <;> simp [this]
        · rcases List.mem_cons.mp hl with rfl | hl
          · exact ⟨l, List.mem_cons_self, htype, rfl⟩
          · obtain ⟨l', hl', hsame⟩ := hrows l hl htype
            exact ⟨l', List.mem_cons_of_mem _ hl', hsame⟩

/-- The drawing adds no row and leaves the deductions alone. -/
theorem deductFrozen_kept (h : deductFrozen owner instanceId remaining logs = (logs', given)) :
    logs'.length ≤ logs.length ∧
      logs'.filter (·.type == .deduction) = logs.filter (·.type == .deduction) := by
  induction logs generalizing remaining logs' given with
  | nil =>
      cases h
      exact ⟨le_rfl, rfl⟩
  | cons log logs ih =>
      rw [deductFrozen] at h
      split at h
      · rename_i hfrozen
        have hincome : log.type = .income := by
          simp only [HostingBalanceLog.isFrozenIncome, Bool.and_eq_true, beq_iff_eq] at hfrozen
          exact hfrozen.1.1.2
        dsimp only at h
        generalize hrest : deductFrozen owner instanceId
          (remaining - min log.amount remaining) logs = rest at h
        obtain ⟨rest, left⟩ := rest
        obtain ⟨hlength, hkept⟩ := ih hrest
        split at h
        · cases h
          exact ⟨hlength.trans (Nat.le_succ _), by simp [hincome, hkept]⟩
        · cases h
          exact ⟨Nat.succ_le_succ hlength, by simp [hincome, hkept]⟩
      · generalize hrest : deductFrozen owner instanceId remaining logs = rest at h
        obtain ⟨rest, left⟩ := rest
        obtain ⟨hlength, hkept⟩ := ih hrest
        cases h
        exact ⟨Nat.succ_le_succ hlength, by simp only [List.filter_cons, hkept]⟩

theorem deductAvailable_spec (h : deductAvailable db owner remaining = (db', given)) :
    Posting db db' [] [] ∧ HostingFrame db db' ∧ SameHosting db db' ∧
      (0 ≤ remaining → given ≤ remaining) := by
  unfold deductAvailable at h
  dsimp only at h
  split at h
  · cases h
    exact ⟨.updateUser db owner _ fun _ => rfl, ⟨rfl, rfl, rfl, rfl, rfl, rfl, rfl⟩,
      .updateUser db owner _ fun _ => rfl, fun _ => min_le_right _ _⟩
  · cases h
    exact ⟨.refl db, .refl db, .refl db, id⟩

theorem deductPanel_spec (h : deductPanel db owner instanceId remaining = (db', given)) :
    (∃ logs, Posting db db' logs [] ∧ (∀ log ∈ logs, log.type = .hostingDeduction)) ∧
      HostingFrame db db' ∧ SameHosting db db' ∧ (0 ≤ remaining → given ≤ remaining) := by
  unfold deductPanel at h
  dsimp only at h
  split at h
  · rename_i hpos
    cases h
    have huser : (db.users owner).isSome := by
      cases hu : db.users owner with
      | none => simp [hu] at hpos
      | some user => rfl
    have hhosting := (SameHosting.updateUser db owner (fun u =>
      { u with balance := u.balance - min ((db.users owner).map (·.balance) |>.getD 0) remaining })
      fun _ => rfl)
    refine ⟨⟨_, .updateBalance db owner _ _ rfl (fun u => ?_) huser, ?_⟩,
      ⟨rfl, rfl, rfl, rfl, rfl, rfl, rfl⟩, hhosting.trans (.of_eq rfl rfl rfl),
      fun _ => min_le_right _ _⟩
    · exact sub_eq_add_neg _ _
    · intro log hlog
      rw [List.mem_singleton] at hlog
      rw [hlog]
  · cases h
    exact ⟨⟨[], .refl db, by simp⟩, .refl db, .refl db, id⟩

/-- A deduction of hosting income posts no billing record, and no balance log
but that of the panel balance it may draw on; it takes at most the amount. -/
theorem deductHostingBalance_spec
    (h : deductHostingBalance db e hostId amount instanceId = .ok (db', result)) :
    (∃ logs, Posting db db' logs [] ∧ (∀ log ∈ logs, log.type = .hostingDeduction)) ∧
      HostingFrame db db' ∧ HostingTaken db db' hostId instanceId amount := by
  unfold deductHostingBalance at h
  cases hresolve : resolveHostedIncomeOwner db hostId (some instanceId) true with
  | none =>
      simp only [hresolve] at h
      cases h
      exact ⟨⟨[], .refl db, by simp⟩, .refl db, .refl db hostId instanceId amount⟩
  | some owner =>
  simp only [hresolve] at h
  split at h
  · cases h
  generalize hfrozen : deductFrozen owner instanceId (toUnits amount) db.hostingLogs = frozen at h
  obtain ⟨hostingLogs, remaining⟩ := frozen
  obtain ⟨hrecovered, hothers, hrows⟩ := deductFrozen_rows hfrozen
  obtain ⟨hlength, hkept⟩ := deductFrozen_kept hfrozen
  dsimp only at h
  generalize havailable : (if 0 < remaining then
    deductAvailable { db with hostingLogs } owner remaining else ({ db with hostingLogs }, 0))
      = available at h
  obtain ⟨db₁, fromAvailable⟩ := available
  dsimp only at h
  generalize hpanel : (if 0 < remaining - fromAvailable then
    deductPanel db₁ owner instanceId (remaining - fromAvailable) else (db₁, 0)) = panel at h
  obtain ⟨db₂, fromBalance⟩ := panel
  have h₀ : Posting db { db with hostingLogs } [] [] := .of_eq rfl rfl rfl le_rfl rfl
  have h₁ : Posting { db with hostingLogs } db₁ [] [] ∧ HostingFrame { db with hostingLogs } db₁ ∧
      SameHosting { db with hostingLogs } db₁ ∧ (0 ≤ remaining → fromAvailable ≤ remaining) := by
    split at havailable
    · exact deductAvailable_spec havailable
    · cases havailable
      exact ⟨.refl _, .refl _, .refl _, id⟩
  have h₂ : (∃ logs, Posting db₁ db₂ logs [] ∧
      (∀ log ∈ logs, log.type = .hostingDeduction)) ∧ HostingFrame db₁ db₂ ∧ SameHosting db₁ db₂ ∧
      (0 ≤ remaining - fromAvailable → fromBalance ≤ remaining - fromAvailable) := by
    split at hpanel
    · exact deductPanel_spec hpanel
    · cases hpanel
      exact ⟨⟨[], .refl _, by simp⟩, .refl _, .refl _, id⟩
  obtain ⟨hposting₁, hframe₁, hhosting₁, hgiven₁⟩ := h₁
  obtain ⟨⟨logs, hposting, htypes⟩, hframe, hhosting, hgiven⟩ := h₂
  have hframe₀ : HostingFrame db { db with hostingLogs } := ⟨rfl, rfl, rfl, rfl, rfl, rfl, rfl⟩
  have hall : Posting db db₂ logs [] := by simpa using (h₀.trans hposting₁).trans hposting
  have hframes := (hframe₀.trans hframe₁).trans hframe
  have hhosting₀ : SameOwners db { db with hostingLogs } := ⟨rfl, fun _ => rfl⟩
  have howners : SameOwners db db₂ :=
    hhosting₀.trans (hhosting₁.toSameOwners.trans hhosting.toSameOwners)
  have hlogs : db₂.hostingLogs = hostingLogs := hhosting.logs.trans hhosting₁.logs
  -- what is taken is within the amount
  have htotal : toUnits amount - remaining + fromAvailable + fromBalance ≤ max 0 (toUnits amount) := by
    rcases le_total 0 (toUnits amount) with hpos | hneg
    · have hremaining := deductFrozen_remaining_nonneg hfrozen hpos
      have := hgiven₁ hremaining
      have := hgiven (sub_nonneg.mpr this)
      exact le_max_of_le_right (by linarith)
    · rw [deductFrozen_of_nonpos hneg] at hfrozen
      cases hfrozen
      rw [if_neg (not_lt.mpr hneg)] at havailable
      cases havailable
      rw [sub_zero, if_neg (not_lt.mpr hneg)] at hpanel
      cases hpanel
      simp
  dsimp only at h
  split at h
  · rename_i hpos
    cases h
    refine ⟨⟨logs, hall.keep rfl rfl rfl (Nat.le_succ _) rfl, htypes⟩,
      hframes.trans ⟨rfl, rfl, rfl, rfl, rfl, rfl, rfl⟩,
      { howners.trans ⟨rfl, fun _ => rfl⟩ with
        recovered := ⟨_, hpos.le, htotal, fun hnone => by simp [hresolve] at hnone, fun ids => ?_⟩
        others := fun ids hids => ?_
        rows := fun log hlog htype => ?_
        added := ⟨hostingLogs, some _, by rw [Db.createHostingLog, hlogs]; rfl, hlength, hkept, ?_⟩ }⟩
    · rw [← hrecovered ids]
      simp only [Db.createHostingLog, hlogs, recoveredOver, List.filter_append, Keyed.total_append]
      by_cases hmem : instanceId ∈ ids <;> simp [hmem]
    · rw [← hothers ids hids]
      simp only [Db.createHostingLog, hlogs, incomeOver, List.filter_append, Keyed.total_append]
      simp
    · simp only [Db.createHostingLog, hlogs, List.mem_append, List.mem_singleton] at hlog
      rcases hlog with hlog | rfl
      · exact hrows log hlog htype
      · cases htype
    · intro log hlog
      rw [← Option.some.inj hlog]
      exact ⟨rfl, hresolve, rfl, by simpa using htotal⟩
  · cases h
    exact ⟨⟨logs, hall, htypes⟩, hframes,
      { howners with
        recovered := ⟨0, le_rfl, le_max_left _ _, fun _ => rfl, fun ids => by
          rw [hlogs, hrecovered ids]; simp⟩
        others := fun ids hids => by rw [hlogs, hothers ids hids]
        rows := fun log hlog htype => hrows log (hlogs ▸ hlog) htype
        added := ⟨hostingLogs, none, by rw [hlogs]; exact (List.append_nil _).symm, hlength, hkept,
          by simp⟩ }⟩

end Deduct

end Incudal
