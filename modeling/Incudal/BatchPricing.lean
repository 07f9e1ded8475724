/-
# `BatchPricing` — what the preview of a batch promises

The preview nets what a user owes and gets over the batch and compares it with
his balance.  The batch then settles item by item, by user and refunds before
charges, each charge guarded by the balance of that moment (`settle_run`).

A refund also takes hosting income back, and this the preview does not count:
it draws on the panel balance of the host's owner, who may be a user of the
batch, and it needs the owner's lock.  `SettledRun` keeps the two parts of each
balance apart, what the user's own items come to and what has been drawn.
-/
import Incudal.PriceAdjustment

namespace Incudal

/-! ## The preview -/

/-- The items of `buildBatchPriceUpdatePreview`. -/
def buildBatchPriceUpdatePreview (db : Db) (now : Time) (instanceIds : List ℕ) (newPrice : Cents)
    (settleBalance : Bool) : List BatchPriceUpdateItem :=
  instanceIds.map (previewItem db now newPrice settleBalance)

/-- `BatchPriceUpdateUserImpact.balanceAfter`. -/
def impactBalanceAfter (db : Db) (items : List BatchPriceUpdateItem) (userId : ℕ) : Units :=
  roundUnits (db.balanceOf userId - toUnits (netDiff items userId))

/-- The versions that the caller sends are those of the preview. -/
def VersionsPreviewed (versions : List (ℕ × ℕ)) (items : List BatchPriceUpdateItem) : Prop :=
  ∀ item ∈ items, (versions.find? (·.1 == item.id)).map (·.2) = item.instanceVersion

/-- The tables after the request: what throws inside the transaction writes nothing. -/
def afterBatch (db : Db) (e : Env) (instanceIds : List ℕ) (newPrice : ℚ) (settleBalance : Bool)
    (expectations : List (ℕ × ℕ)) : Db :=
  match batchUpdatePrice db e instanceIds newPrice settleBalance expectations with
  | .ok db' => db'
  | .error _ => db

/-! ## What the batch may do -/

/-- What some items come to for a user. -/
def owed (items : List BatchPriceUpdateItem) (userId : ℕ) : Cents :=
  Keyed.total BatchPriceUpdateItem.priceDiff (items.filter (·.userId == some userId))

/-- What deductions of hosting income have drawn from the panel balance of a user. -/
def panelDrawn (userId : ℕ) (logs : List BalanceLog) : Units :=
  -logSum userId (logs.filter (·.type == .hostingDeduction))

/-- Whose hosting income a refund for the item takes back. -/
def hostedBy (db : Db) (item : BatchPriceUpdateItem) : Option ℕ :=
  (db.instances item.id).bind fun inst =>
    resolveHostedIncomeOwner db inst.hostId (some item.id) true

/-- A refund of the batch takes hosting income of this user back. -/
def RefundHostedBy (db : Db) (items : List BatchPriceUpdateItem) (userId : ℕ) : Prop :=
  ∃ item ∈ items, item.priceDiff < 0 ∧ hostedBy db item = some userId

/-- The batch has done what was previewed: the ready items have the new price
and nothing else of the instances has changed, and of each balance the net
difference is taken, besides what has been drawn from a host owner. -/
structure BatchSettled (db db' : Db) (items : List BatchPriceUpdateItem) : Prop where
  prices : ∀ item ∈ items, item.status = .ready →
    db'.instances item.id = (db.instances item.id).map (·.repriced item.newPrice)
  others : ∀ k, (∀ item ∈ items, item.status = .ready → item.id ≠ k) →
    db'.instances k = db.instances k
  balances : ∃ logs, db'.balanceLogs = db.balanceLogs ++ logs ∧ ∀ u,
    db'.balanceOf u = db.balanceOf u - toUnits (netDiff items u) - panelDrawn u logs ∧
    0 ≤ panelDrawn u logs ∧ (panelDrawn u logs ≠ 0 → RefundHostedBy db items u)
  previewed : ∀ u, ¬RefundHostedBy db items u →
    roundUnits (db'.balanceOf u) = impactBalanceAfter db items u

/-- An item at which a batch can stop that may be submitted: a refund whose
host owner is locked, or a charge of a user from whom refunds of the batch take
hosting income, or whose balance is short by what the preview rounds away. -/
def CanStopAt (db : Db) (e : Env) (items : List BatchPriceUpdateItem)
    (item : BatchPriceUpdateItem) : Prop :=
  (item.priceDiff < 0 ∧ ∃ owner, hostedBy db item = some owner ∧ e.hostingLocked owner = true) ∨
  (0 < item.priceDiff ∧ ∃ u, item.userId = some u ∧
    (RefundHostedBy db items u ∨
      (impactBalanceAfter db items u = 0 ∧ db.balanceOf u < toUnits (netDiff items u))))

/-! ## What a deduction draws -/

/-- The income rows of an instance. -/
def incomeRows (k : ℕ) (logs : List HostingBalanceLog) : List HostingBalanceLog :=
  logs.filter fun log => log.relatedId == some k && log.type == .income

section Deduct

variable {db db' : Db} {e : Env} {hostId instanceId owner k : ℕ} {amount : Cents}
  {remaining given : Units} {result : Option HostingBalanceDeductionResult}
  {logs logs' : List HostingBalanceLog} {message : String}

/-- The owner of a host's income depends on owners and the income rows of the instance. -/
theorem SameOwners.resolve_fallback (h : SameOwners db db')
    (hrows : incomeRows k db'.hostingLogs = incomeRows k db.hostingLogs) (hostId : ℕ) :
    resolveHostedIncomeOwner db' hostId (some k) true
      = resolveHostedIncomeOwner db hostId (some k) true := by
  simp only [incomeRows] at hrows
  simp only [resolve_eq, h.hosts, h.roles, Option.bind_some, hrows]

/-- Frozen rows of other instances are not drawn on. -/
theorem deductFrozen_incomeRows
    (h : deductFrozen owner instanceId remaining logs = (logs', given)) (hk : k ≠ instanceId) :
    incomeRows k logs' = incomeRows k logs := by
  induction logs generalizing remaining logs' given with
  | nil =>
      cases h
      rfl
  | cons log logs ih =>
      rw [deductFrozen] at h
      split at h
      · rename_i hfrozen
        have hrelated : log.relatedId = some instanceId := by
          simp only [HostingBalanceLog.isFrozenIncome, Bool.and_eq_true, beq_iff_eq] at hfrozen
          exact hfrozen.1.1.1.2
        have hother : (some instanceId == some k) = false := by simpa using Ne.symm hk
        dsimp only at h
        generalize hrest : deductFrozen owner instanceId
          (remaining - min log.amount remaining) logs = rest at h
        obtain ⟨rest, left⟩ := rest
        have hsame := ih hrest
        simp only [incomeRows] at hsame ⊢
        split at h
        · cases h
          rw [hsame, List.filter_cons_of_neg (by simp [hrelated, hother])]
        · cases h
          rw [List.filter_cons_of_neg (by simp [hrelated, hother]),
            List.filter_cons_of_neg (by simp [hrelated, hother]), hsame]
      · generalize hrest : deductFrozen owner instanceId remaining logs = rest at h
        obtain ⟨rest, left⟩ := rest
        have hsame := ih hrest
        cases h
        simp only [incomeRows, List.filter_cons] at hsame ⊢
        rw [hsame]

theorem deductAvailable_balanceOf (h : deductAvailable db owner remaining = (db', given)) (u : ℕ) :
    db'.balanceOf u = db.balanceOf u := by
  simpa using (deductAvailable_spec h).1.balance u

/-- Only the owner's panel balance is drawn on. -/
theorem deductPanel_balanceOf (h : deductPanel db owner instanceId remaining = (db', given))
    (u : ℕ) : db'.balanceOf u ≤ db.balanceOf u ∧
      (db'.balanceOf u ≠ db.balanceOf u → u = owner) := by
  unfold deductPanel at h
  dsimp only at h
  split at h
  · rename_i hpos
    cases h
    by_cases hu : u = owner
    · subst hu
      refine ⟨?_, fun _ => rfl⟩
      cases huser : db.users u with
      | none => simp [huser] at hpos
      | some user =>
          simp only [huser, Option.map_some, Option.getD_some] at hpos
          simp only [Db.balanceOf, Db.createBalanceLog, Db.updateUser, Function.update_self, huser,
            Option.map_some, Option.getD_some]
          exact sub_le_self _ hpos.le
    · simp [Db.balanceOf, Db.createBalanceLog, Db.updateUser, hu]
  · cases h
    exact ⟨le_rfl, fun hne => absurd rfl hne⟩

/-- A deduction leaves the income rows of other instances alone, and draws on
nobody's panel balance but the owner's. -/
theorem deductHostingBalance_drawn
    (h : deductHostingBalance db e hostId amount instanceId = .ok (db', result)) :
    (∀ k ≠ instanceId, incomeRows k db'.hostingLogs = incomeRows k db.hostingLogs) ∧
      ∀ u, db'.balanceOf u ≤ db.balanceOf u ∧ (db'.balanceOf u ≠ db.balanceOf u →
        resolveHostedIncomeOwner db hostId (some instanceId) true = some u) := by
  unfold deductHostingBalance at h
  cases hresolve : resolveHostedIncomeOwner db hostId (some instanceId) true with
  | none =>
      simp only [hresolve] at h
      cases h
      exact ⟨fun _ _ => rfl, fun u => ⟨le_rfl, fun hne => absurd rfl hne⟩⟩
  | some owner =>
  simp only [hresolve] at h
  split at h
  · cases h
  generalize hfrozen : deductFrozen owner instanceId (toUnits amount) db.hostingLogs = frozen at h
  obtain ⟨hostingLogs, remaining⟩ := frozen
  dsimp only at h
  generalize havailable : (if 0 < remaining then
    deductAvailable { db with hostingLogs } owner remaining else ({ db with hostingLogs }, 0))
      = available at h
  obtain ⟨db₁, fromAvailable⟩ := available
  dsimp only at h
  generalize hpanel : (if 0 < remaining - fromAvailable then
    deductPanel db₁ owner instanceId (remaining - fromAvailable) else (db₁, 0)) = panel at h
  obtain ⟨db₂, fromBalance⟩ := panel
  have h₁ : SameHosting { db with hostingLogs } db₁ ∧ ∀ u, db₁.balanceOf u = db.balanceOf u := by
    split at havailable
    · exact ⟨(deductAvailable_spec havailable).2.2.1,
        fun u => (deductAvailable_balanceOf havailable u).trans rfl⟩
    · cases havailable
      exact ⟨.refl _, fun _ => rfl⟩
  have h₂ : SameHosting db₁ db₂ ∧ ∀ u, db₂.balanceOf u ≤ db₁.balanceOf u ∧
      (db₂.balanceOf u ≠ db₁.balanceOf u → u = owner) := by
    split at hpanel
    · exact ⟨(deductPanel_spec hpanel).2.2.1, deductPanel_balanceOf hpanel⟩
    · cases hpanel
      exact ⟨.refl _, fun _ => ⟨le_rfl, fun hne => absurd rfl hne⟩⟩
  obtain ⟨hhosting₁, hbalance₁⟩ := h₁
  obtain ⟨hhosting₂, hbalance₂⟩ := h₂
  have hlogs : db₂.hostingLogs = hostingLogs := hhosting₂.logs.trans hhosting₁.logs
  have hdrawn (u : ℕ) : db₂.balanceOf u ≤ db.balanceOf u ∧
      (db₂.balanceOf u ≠ db.balanceOf u → some owner = some u) := by
    rw [← hbalance₁ u]
    exact ⟨(hbalance₂ u).1, fun hne => congrArg some ((hbalance₂ u).2 hne).symm⟩
  dsimp only at h
  split at h
  · cases h
    refine ⟨fun k hk => ?_, hdrawn⟩
    have hrows := deductFrozen_incomeRows hfrozen hk
    simp only [incomeRows] at hrows ⊢
    rw [Db.createHostingLog, hlogs, List.filter_append, hrows, List.filter_cons_of_neg (by simp)]
    exact List.append_nil _
  · cases h
    exact ⟨fun k hk => hlogs ▸ deductFrozen_incomeRows hfrozen hk, hdrawn⟩

/-- A deduction fails only when another transaction holds the owner's lock. -/
theorem deductHostingBalance_error
    (h : deductHostingBalance db e hostId amount instanceId = .error message) :
    ∃ owner, resolveHostedIncomeOwner db hostId (some instanceId) true = some owner ∧
      e.hostingLocked owner = true := by
  unfold deductHostingBalance at h
  cases hresolve : resolveHostedIncomeOwner db hostId (some instanceId) true with
  | none => simp [hresolve] at h
  | some owner =>
      simp only [hresolve] at h
      split at h
      · rename_i hlocked
        exact ⟨owner, rfl, hlocked⟩
      · cases h

end Deduct

/-! ## The settlement of one item -/

/-- An item that is to be settled: its row and its user are there. -/
structure Payable (db : Db) (item : BatchPriceUpdateItem) : Prop where
  row : ∃ inst, db.instances item.id = some inst ∧ item.userId = some inst.userId ∧
    (db.users inst.userId).isSome
  priceDiff : item.priceDiff ≠ 0

/-- What settling some items does: each balance changes by what the user's
items come to and by what has been drawn. -/
structure SettledRun (db db' : Db) (items : List BatchPriceUpdateItem) (logs : List BalanceLog) :
    Prop extends SameOwners db db' where
  instances : db'.instances = db.instances
  balanceLogs : db'.balanceLogs = db.balanceLogs ++ logs
  users : ∀ u, (db'.users u).isSome = (db.users u).isSome
  income : ∀ k, (∀ item ∈ items, item.id ≠ k) →
    incomeRows k db'.hostingLogs = incomeRows k db.hostingLogs
  balance : ∀ u, db'.balanceOf u = db.balanceOf u - toUnits (owed items u) - panelDrawn u logs
  drawn : ∀ u, 0 ≤ panelDrawn u logs ∧ (panelDrawn u logs ≠ 0 → RefundHostedBy db items u)

section Settle

variable {db db' db'' : Db} {e : Env} {item : BatchPriceUpdateItem}
  {items items' : List BatchPriceUpdateItem} {logs logs' : List BalanceLog} {message : String}
  {userId instanceId balanceLogId : ℕ} {amount : Cents}

@[simp] theorem owed_nil (userId : ℕ) : owed [] userId = 0 := rfl

@[simp] theorem owed_append (items items' : List BatchPriceUpdateItem) (userId : ℕ) :
    owed (items ++ items') userId = owed items userId + owed items' userId := by
  simp [owed]

theorem owed_singleton (item : BatchPriceUpdateItem) (userId : ℕ) :
    owed [item] userId = if item.userId = some userId then item.priceDiff else 0 := by
  by_cases h : item.userId = some userId <;> simp [owed, h]

@[simp] theorem panelDrawn_append (userId : ℕ) (logs logs' : List BalanceLog) :
    panelDrawn userId (logs ++ logs') = panelDrawn userId logs + panelDrawn userId logs' := by
  simp [panelDrawn]
  ring

theorem toUnits_add (a b : Cents) : toUnits (a + b) = toUnits a + toUnits b := by
  simp only [toUnits]
  ring

theorem toUnits_neg (a : Cents) : toUnits (-a) = -toUnits a := by
  simp only [toUnits]
  ring

/-- An item is hosted by the same owner as long as its own income rows are. -/
theorem SettledRun.same_host (h : SettledRun db db' items logs)
    (hid : ∀ i ∈ items, i.id ≠ item.id) : hostedBy db' item = hostedBy db item := by
  simp only [hostedBy, h.instances,
    h.toSameOwners.resolve_fallback (h.income item.id hid)]

theorem SettledRun.payable (h : SettledRun db db' items logs) (hpay : Payable db item) :
    Payable db' item := by
  obtain ⟨inst, hinst, huserId, huser⟩ := hpay.row
  exact ⟨⟨inst, by rw [h.instances, hinst], huserId, by rw [h.users, huser]⟩, hpay.priceDiff⟩

theorem SettledRun.refl (db : Db) : SettledRun db db [] [] :=
  { SameOwners.refl db with
    instances := rfl
    balanceLogs := (List.append_nil _).symm
    users := fun _ => rfl
    income := fun _ _ => rfl
    balance := fun u => by simp [panelDrawn, toUnits]
    drawn := fun u => ⟨le_rfl, fun hne => absurd rfl hne⟩ }

/-- Runs over items with different ids follow one another. -/
theorem SettledRun.trans (h : SettledRun db db' items logs) (h' : SettledRun db' db'' items' logs')
    (hids : ∀ i' ∈ items', ∀ i ∈ items, i.id ≠ i'.id) :
    SettledRun db db'' (items ++ items') (logs ++ logs') := by
  refine
    { h.toSameOwners.trans h'.toSameOwners with
      instances := h'.instances.trans h.instances
      balanceLogs := by rw [h'.balanceLogs, h.balanceLogs, List.append_assoc]
      users := fun u => (h'.users u).trans (h.users u)
      income := fun k hk => ?_
      balance := fun u => ?_
      drawn := fun u => ⟨?_, fun hne => ?_⟩ }
  · obtain ⟨hk, hk'⟩ := List.forall_mem_append.mp hk
    exact (h'.income k hk').trans (h.income k hk)
  · rw [h'.balance, h.balance, owed_append, panelDrawn_append, toUnits_add]
    ring
  · rw [panelDrawn_append]
    exact add_nonneg (h.drawn u).1 (h'.drawn u).1
  · rw [panelDrawn_append] at hne
    by_cases hfirst : panelDrawn u logs = 0
    · obtain ⟨i, hi, hneg, hhosted⟩ := (h'.drawn u).2 (by simpa [hfirst] using hne)
      exact ⟨i, List.mem_append_right _ hi, hneg, h.same_host (hids i hi) ▸ hhosted⟩
    · obtain ⟨i, hi, hneg, hhosted⟩ := (h.drawn u).2 hfirst
      exact ⟨i, List.mem_append_left _ hi, hneg, hhosted⟩

/-- A debit fails for want of balance alone, and otherwise writes its log. -/
theorem chargeBalance_cases (instanceId : ℕ) (amount : Cents) (huser : (db.users userId).isSome) :
    (∃ message, chargeBalance db userId instanceId amount = .error message ∧
      db.balanceOf userId < toUnits amount) ∨
    ∃ db₁ id log, chargeBalance db userId instanceId amount = .ok (db₁, id) ∧
      Posting db db₁ [log] [] ∧ log.type = .consume ∧ log.userId = userId ∧
      log.amount = -toUnits amount ∧ SameHosting db db₁ ∧ db₁.instances = db.instances := by
  obtain ⟨user, huser⟩ := Option.isSome_iff_exists.mp huser
  simp only [chargeBalance, huser]
  split
  · rename_i hshort
    exact .inl ⟨_, rfl, by simpa [Db.balanceOf, huser] using hshort⟩
  · have hhosting := SameHosting.updateUser db userId
      (fun u => { u with balance := u.balance - toUnits amount }) fun _ => rfl
    exact .inr ⟨_, _, _, rfl, .updateBalance db userId _ _ rfl (fun u => sub_eq_add_neg _ _)
      (by simp [huser]), rfl, rfl, rfl, hhosting.trans (.of_eq rfl rfl rfl), rfl⟩

/-- Income for one instance is none for another. -/
theorem processHostingIncome_incomeRows (db : Db) (e : Env) (hostId : ℕ) (amount : Cents)
    {instanceId k : ℕ} (hk : k ≠ instanceId) :
    incomeRows k (processHostingIncome db e hostId amount instanceId).hostingLogs
      = incomeRows k db.hostingLogs := by
  unfold processHostingIncome
  split
  · rfl
  · simp [recordHostingIncome, Db.createHostingLog, incomeRows, hk.symm]

/-- One item is settled by one log of its user, and by what is drawn next to it. -/
theorem SettledRun.of_posting {log : BalanceLog} {drawn : List BalanceLog}
    {records : List BillingRecord} (hposting : Posting db db' (log :: drawn) records)
    (howners : SameOwners db db') (hinstances : db'.instances = db.instances)
    (hincome : ∀ k ≠ item.id, incomeRows k db'.hostingLogs = incomeRows k db.hostingLogs)
    (huser : item.userId = some log.userId) (hamount : log.amount = -toUnits item.priceDiff)
    (htype : log.type ≠ .hostingDeduction) (htypes : ∀ l ∈ drawn, l.type = .hostingDeduction)
    (hdrawn : ∀ u, logSum u drawn ≤ 0 ∧
      (logSum u drawn ≠ 0 → item.priceDiff < 0 ∧ hostedBy db item = some u)) :
    SettledRun db db' [item] (log :: drawn) := by
  have hfilter : (log :: drawn).filter (·.type == .hostingDeduction) = drawn := by
    rw [List.filter_cons_of_neg (by simpa using htype)]
    exact List.filter_eq_self.mpr fun l hl => by simpa using htypes l hl
  have hpanel (u : ℕ) : panelDrawn u (log :: drawn) = -logSum u drawn := by
    rw [panelDrawn, hfilter]
  refine
    { howners with
      instances := hinstances
      balanceLogs := hposting.balanceLogs
      users := hposting.users
      income := fun k hk => hincome k (hk item (List.mem_singleton_self item)).symm
      balance := fun u => ?_
      drawn := fun u => ?_ }
  · have hlog : logSum u (log :: drawn) = logSum u [log] + logSum u drawn :=
      logSum_append u [log] drawn
    rw [hposting.balance, hlog, hpanel, owed_singleton, logSum_singleton, huser, hamount]
    by_cases hu : log.userId = u
    · simp only [hu, if_true]
      ring
    · rw [if_neg hu, if_neg (by simpa using hu)]
      simp [toUnits]
  · rw [hpanel]
    refine ⟨neg_nonneg.mpr (hdrawn u).1, fun hne => ?_⟩
    exact ⟨item, List.mem_singleton_self item, (hdrawn u).2 (neg_ne_zero.mp hne)⟩

/-- A charge fails for want of balance alone. -/
theorem settleItem_charge (e : Env) (hpay : Payable db item) (hpos : 0 < item.priceDiff) :
    (∃ message u, settleItem e db item = .error message ∧ item.userId = some u ∧
      db.balanceOf u < toUnits item.priceDiff) ∨
    ∃ db' logs, settleItem e db item = .ok db' ∧ SettledRun db db' [item] logs := by
  obtain ⟨inst, hinst, huserId, huser⟩ := hpay.row
  obtain ⟨user, hfound⟩ := Option.isSome_iff_exists.mp huser
  simp only [settleItem, hinst, settlePriceDiff, hfound, if_pos hpos]
  obtain ⟨message, hcharge, hshort⟩ |
      ⟨db₁, id, log, hcharge, hposting, htype, hlogUser, hamount, hhosting, hinstances⟩ :=
    chargeBalance_cases item.id item.priceDiff huser
  · rw [hcharge]
    exact .inl ⟨_, _, rfl, huserId, hshort⟩
  · rw [hcharge]
    dsimp only
    generalize hrecord : ({ id := 0, instanceId := item.id, userId := inst.userId, type := .upgrade
                            amount := item.priceDiff, periodStart := e.now
                            periodEnd := inst.expiresAt.getD e.now, balanceLogId := some id
                            createdAt := e.now } : BillingRecord) = record
    have hput := Posting.createBillingRecord db₁ record
    have hsame : SameHosting db (db₁.createBillingRecord record) :=
      hhosting.trans (.of_eq rfl rfl rfl)
    obtain ⟨hquiet, hearned, hkept, -⟩ :=
      processHostingIncome_spec (db₁.createBillingRecord record) e inst.hostId item.priceDiff
        item.id
    refine .inr ⟨_, _, rfl, .of_posting ((hposting.trans hput).trans hquiet)
      (hsame.toSameOwners.trans hearned.toSameOwners) (hkept.trans hinstances) (fun k hk => ?_)
      (hlogUser ▸ huserId) hamount (by simp [htype]) (by simp) fun u => by simp⟩
    rw [processHostingIncome_incomeRows _ _ _ _ hk, hsame.logs]

/-- A refund fails only at the lock of the host's owner. -/
theorem settleItem_refund (e : Env) (hpay : Payable db item) (hneg : item.priceDiff < 0) :
    (∃ message owner, settleItem e db item = .error message ∧ hostedBy db item = some owner ∧
      e.hostingLocked owner = true) ∨
    ∃ db' logs, settleItem e db item = .ok db' ∧ SettledRun db db' [item] logs := by
  obtain ⟨inst, hinst, huserId, huser⟩ := hpay.row
  obtain ⟨user, hfound⟩ := Option.isSome_iff_exists.mp huser
  have hhosted : hostedBy db item =
      resolveHostedIncomeOwner db inst.hostId (some item.id) true := by
    simp only [hostedBy, hinst, Option.bind_some]
  simp only [settleItem, hinst, settlePriceDiff, hfound, if_neg (not_lt.mpr hneg.le),
    refundPriceDiff]
  obtain ⟨log, hposting, -, htype, hlogUser, hamount, hframe, hhosting⟩ :=
    creditRefund_posting item.id |item.priceDiff|
      (roundUnits (user.balance + toUnits |item.priceDiff| - toUnits |item.priceDiff|))
      (user.balance + toUnits |item.priceDiff|) huser
  generalize creditRefund db inst.userId item.id |item.priceDiff|
    (roundUnits (user.balance + toUnits |item.priceDiff| - toUnits |item.priceDiff|))
    (user.balance + toUnits |item.priceDiff|) = credited at hposting hframe hhosting ⊢
  obtain ⟨db₁, balanceLogId⟩ := credited
  dsimp only at hposting hframe hhosting ⊢
  rw [abs_of_neg hneg, toUnits_neg] at hamount
  generalize calculateHostedRefundAmount db₁ e.now item.id |item.priceDiff| true = hostedAmount
  generalize hrecord : ({ id := 0, instanceId := item.id, userId := inst.userId, type := .refund
                          amount := -|item.priceDiff|, periodStart := e.now
                          periodEnd := inst.expiresAt.getD e.now
                          balanceLogId := some balanceLogId, createdAt := e.now } : BillingRecord)
    = record
  have hput := hposting.trans (.createBillingRecord db₁ record)
  have hsame : SameHosting db (db₁.createBillingRecord record) :=
    hhosting.trans (.of_eq rfl rfl rfl)
  split
  · cases hdeduct : deductHostingBalance (db₁.createBillingRecord record) e inst.hostId hostedAmount
      item.id with
    | error message =>
        obtain ⟨owner, howner, hlocked⟩ := deductHostingBalance_error hdeduct
        rw [hsame.resolve, ← hhosted] at howner
        exact .inl ⟨message, owner, rfl, howner, hlocked⟩
    | ok deducted =>
        obtain ⟨db', result⟩ := deducted
        obtain ⟨⟨drawn, hdrawn, htypes⟩, hkept, htaken⟩ := deductHostingBalance_spec hdeduct
        obtain ⟨hincome, hbalance⟩ := deductHostingBalance_drawn hdeduct
        have hall : ∃ records, Posting db db' (log :: drawn) records := ⟨_, hput.trans hdrawn⟩
        obtain ⟨records, hall⟩ := hall
        refine .inr ⟨db', _, rfl, .of_posting hall
          (hsame.toSameOwners.trans htaken.toSameOwners) (hkept.instances.trans hframe.instances)
          (fun k hk => (hincome k hk).trans (by rw [hsame.logs])) (hlogUser ▸ huserId) hamount
          (by simp [htype]) htypes fun u => ?_⟩
        -- what is drawn is what the deduction has taken from the balance
        obtain ⟨hle, howner⟩ := hbalance u
        have hsum : logSum u drawn =
            db'.balanceOf u - (db₁.createBillingRecord record).balanceOf u := by
          rw [hdrawn.balance]
          ring
        rw [hsum]
        refine ⟨sub_nonpos.mpr hle, fun hne => ⟨hneg, ?_⟩⟩
        rw [hhosted, ← hsame.resolve]
        exact howner (sub_ne_zero.mp hne)
  · refine .inr ⟨_, _, rfl, .of_posting hput hsame.toSameOwners hframe.instances
      (fun k _ => by rw [hsame.logs]) (hlogUser ▸ huserId) hamount (by simp [htype]) (by simp)
      fun u => by simp⟩

/-! ## The settlements in their order -/

/-- Items are settled one after the other until one of them fails. -/
theorem settle_run (e : Env) (hpay : ∀ item ∈ items, Payable db item)
    (hnodup : (items.map (·.id)).Nodup) :
    (∃ db' logs, items.foldlM (settleItem e) db = .ok db' ∧ SettledRun db db' items logs) ∨
    ∃ before item after db₁ logs message, items = before ++ item :: after ∧
      items.foldlM (settleItem e) db = .error message ∧ SettledRun db db₁ before logs ∧
      settleItem e db₁ item = .error message := by
  induction items generalizing db with
  | nil => exact .inl ⟨db, [], rfl, .refl db⟩
  | cons item items ih =>
      obtain ⟨hitem, hitems⟩ := List.forall_mem_cons.mp hpay
      obtain ⟨hfresh, hrest⟩ := List.nodup_cons.mp hnodup
      have hids : ∀ i' ∈ items, ∀ i ∈ [item], i.id ≠ i'.id := by
        intro i' hi' i hi heq
        obtain rfl := List.mem_singleton.mp hi
        exact hfresh (List.mem_map.mpr ⟨i', hi', heq.symm⟩)
      have hstep : (∃ message, settleItem e db item = .error message) ∨
          ∃ db₁ logs, settleItem e db item = .ok db₁ ∧ SettledRun db db₁ [item] logs := by
        rcases hitem.priceDiff.lt_or_gt with hneg | hpos
        · exact (settleItem_refund e hitem hneg).imp_left fun ⟨message, _, herror, _⟩ =>
            ⟨message, herror⟩
        · exact (settleItem_charge e hitem hpos).imp_left fun ⟨message, _, herror, _⟩ =>
            ⟨message, herror⟩
      rw [List.foldlM_cons]
      obtain ⟨message, herror⟩ | ⟨db₁, logs, hok, hsettled⟩ := hstep
      · exact .inr ⟨[], item, items, db, [], message, rfl, by rw [herror]; rfl, .refl db, herror⟩
      · have hnext : ∀ i ∈ items, Payable db₁ i := fun i hi => hsettled.payable (hitems i hi)
        have hbind : (settleItem e db item >>= fun db₁ => items.foldlM (settleItem e) db₁) =
            items.foldlM (settleItem e) db₁ := by rw [hok]; rfl
        rw [hbind]
        obtain ⟨db', logs', hrun, hsettled'⟩ |
            ⟨before, last, after, db₂, logs', message, rfl, hrun, hsettled', herror⟩ :=
          ih hnext hrest
        · exact .inl ⟨db', logs ++ logs', hrun, hsettled.trans hsettled' hids⟩
        · refine .inr ⟨item :: before, last, after, db₂, logs ++ logs', message, rfl, hrun, ?_,
            herror⟩
          exact hsettled.trans hsettled' fun i' hi' => hids i' (List.mem_append_left _ hi')

/-- `a` is settled no later than `b`, where both have a user. -/
def NoLaterThan (a b : BatchPriceUpdateItem) : Prop :=
  a.userId.getD 0 < b.userId.getD 0 ∨
    (a.userId.getD 0 = b.userId.getD 0 ∧ a.priceDiff ≤ b.priceDiff)

instance : DecidableRel NoLaterThan := fun _ _ => inferInstanceAs (Decidable (_ ∨ _))

instance : Std.Total NoLaterThan where
  total a b := by
    rcases lt_trichotomy (a.userId.getD 0) (b.userId.getD 0) with hlt | heq | hgt
    · exact .inl (.inl hlt)
    · exact (le_total a.priceDiff b.priceDiff).imp (fun hle => .inr ⟨heq, hle⟩)
        fun hle => .inr ⟨heq.symm, hle⟩
    · exact .inr (.inl hgt)

instance : IsTrans BatchPriceUpdateItem NoLaterThan where
  trans a b c hab hbc := by
    rcases hab with hab | ⟨hab, hle⟩ <;> rcases hbc with hbc | ⟨hbc, hle'⟩
    · exact .inl (hab.trans hbc)
    · exact .inl (hbc ▸ hab)
    · exact .inl (hab ▸ hbc)
    · exact .inr ⟨hab.trans hbc, hle.trans hle'⟩

theorem settlesBefore_iff {a b : BatchPriceUpdateItem} (ha : a.userId.isSome)
    (hb : b.userId.isSome) : a.settlesBefore b = true ↔ NoLaterThan a b := by
  obtain ⟨u, hu⟩ := Option.isSome_iff_exists.mp ha
  obtain ⟨v, hv⟩ := Option.isSome_iff_exists.mp hb
  simp [BatchPriceUpdateItem.settlesBefore, NoLaterThan, hu, hv]

theorem pairwise_settlesBefore (h : ∀ item ∈ items, item.userId.isSome) :
    (items.insertionSort fun a b => a.settlesBefore b).Pairwise NoLaterThan := by
  have hsort := List.map_insertionSort (fun a b => a.settlesBefore b = true) NoLaterThan id items
    fun a ha b hb => settlesBefore_iff (h a ha) (h b hb)
  rw [List.map_id, List.map_id] at hsort
  rw [hsort]
  exact List.pairwise_insertionSort NoLaterThan items

/-- Once a charge of a user is reached, only charges of his are left. -/
theorem owed_le_of_charge {before after : List BatchPriceUpdateItem}
    (hsorted : (before ++ item :: after).Pairwise NoLaterThan) (huser : item.userId = some userId)
    (hpos : 0 < item.priceDiff) :
    owed before userId + item.priceDiff ≤ owed (before ++ item :: after) userId := by
  have hlater : ∀ later ∈ after, NoLaterThan item later :=
    (List.pairwise_cons.mp (List.pairwise_append.mp hsorted).2.1).1
  have hrest : 0 ≤ owed after userId := by
    refine Keyed.total_nonneg fun later hmem => ?_
    obtain ⟨hmem, hsame⟩ := List.mem_filter.mp hmem
    have hle := hlater later hmem
    simp only [beq_iff_eq] at hsame
    simp only [NoLaterThan, huser, hsame, Option.getD_some, lt_irrefl, true_and, false_or] at hle
    exact hpos.le.trans hle
  have hcons : owed (before ++ item :: after) userId
      = owed before userId + owed [item] userId + owed after userId := by
    rw [← owed_append, ← owed_append, List.append_assoc]
    rfl
  rw [hcons, owed_singleton, if_pos huser]
  exact le_add_of_nonneg_right hrest

end Settle

/-! ## The new prices -/

/-- The rows of some items have their new prices, and nothing else is written. -/
structure Repriced (db db' : Db) (items : List BatchPriceUpdateItem) : Prop where
  rows : ∀ item ∈ items,
    db'.instances item.id = (db.instances item.id).map (·.repriced item.newPrice)
  others : ∀ k, (∀ item ∈ items, item.id ≠ k) → db'.instances k = db.instances k
  rest : db' = { db with instances := db'.instances }

section Reprice

variable {db db' : Db} {items : List BatchPriceUpdateItem} {item : BatchPriceUpdateItem}

/-- With the previewed versions every row is rewritten. -/
theorem reprice_run (hnodup : (items.map (·.id)).Nodup)
    (hversions : ∀ item ∈ items, (db.instances item.id).map (·.version) = item.instanceVersion) :
    ∃ db', items.foldlM repriceItem db = .ok db' ∧ Repriced db db' items := by
  induction items generalizing db with
  | nil => exact ⟨db, rfl, by simp, fun _ _ => rfl, rfl⟩
  | cons item items ih =>
      obtain ⟨hversion, hrest⟩ := List.forall_mem_cons.mp hversions
      obtain ⟨hfresh, htail⟩ := List.nodup_cons.mp hnodup
      have hid : ∀ i ∈ items, i.id ≠ item.id := fun i hi heq =>
        hfresh (List.mem_map.mpr ⟨i, hi, heq⟩)
      have hstep : repriceItem db item
          = .ok (db.updateInstance item.id (·.repriced item.newPrice)) := by
        rw [repriceItem, if_neg (not_not_intro hversion)]
      have hkept (k : ℕ) (hk : k ≠ item.id) :
          (db.updateInstance item.id (·.repriced item.newPrice)).instances k = db.instances k :=
        Function.update_of_ne hk _ _
      obtain ⟨db', hrun, hrows, hothers, hsame⟩ :=
        ih htail fun i hi => (congrArg _ (hkept i.id (hid i hi))).trans (hrest i hi)
      refine ⟨db', by rw [List.foldlM_cons, hstep]; exact hrun, ?_, fun k hk => ?_, hsame⟩
      · rintro i hi
        rcases List.mem_cons.mp hi with rfl | hi
        · rw [hothers _ hid]
          exact Function.update_self _ _ _
        · rw [hrows i hi, hkept _ (hid i hi)]
      · obtain ⟨hhead, htail⟩ := List.forall_mem_cons.mp hk
        rw [hothers k htail, hkept k (Ne.symm hhead)]

/-- Rows keep their user and their host. -/
theorem Repriced.row (h : Repriced db db' items) {k : ℕ} {inst : Instance}
    (hinst : db.instances k = some inst) :
    ∃ inst', db'.instances k = some inst' ∧ inst'.userId = inst.userId ∧
      inst'.hostId = inst.hostId := by
  by_cases hmem : ∃ item ∈ items, item.id = k
  · obtain ⟨item, hitem, rfl⟩ := hmem
    exact ⟨inst.repriced item.newPrice, by rw [h.rows item hitem, hinst, Option.map_some], rfl, rfl⟩
  · push Not at hmem
    exact ⟨inst, by rw [h.others k hmem, hinst], rfl, rfl⟩

theorem Repriced.same_host (h : Repriced db db' items) {inst : Instance}
    (hinst : db.instances item.id = some inst) : hostedBy db' item = hostedBy db item := by
  obtain ⟨inst', hinst', -, hhost⟩ := h.row hinst
  have hsame : SameHosting db db' := by
    rw [h.rest]
    exact .of_eq rfl rfl rfl
  simp only [hostedBy, hinst, hinst', Option.bind_some, hhost]
  exact hsame.resolve inst.hostId (some item.id) true

theorem Repriced.balanceOf (h : Repriced db db' items) (u : ℕ) :
    db'.balanceOf u = db.balanceOf u := by
  rw [h.rest]
  rfl

end Reprice

/-! ## What the preview says of an item -/

section Preview

variable {db : Db} {now : Time} {newPrice : Cents} {settleBalance : Bool} {instanceId : ℕ}
  {ids instanceIds : List ℕ}

@[simp] theorem previewItem_id :
    (previewItem db now newPrice settleBalance instanceId).id = instanceId := by
  unfold previewItem
  split
  · rfl
  · dsimp only
    split <;> rfl

theorem map_previewItem_id :
    (ids.map (previewItem db now newPrice settleBalance)).map (·.id) = ids := by
  simp [List.map_map, Function.comp_def]

/-- The difference of a price to itself. -/
theorem calculatePriceDiff_self (price : ℚ) (billingCycle : ℕ) (remainingDays discountRate : ℚ) :
    calculatePriceDiff price billingCycle price billingCycle remainingDays discountRate = 0 := by
  simp [calculatePriceDiff]

/-- Only an item that is ready has a difference. -/
theorem previewItem_priceDiff
    (h : (previewItem db now newPrice settleBalance instanceId).status ≠ .ready) :
    (previewItem db now newPrice settleBalance instanceId).priceDiff = 0 := by
  unfold previewItem at h ⊢
  split at h
  · rfl
  · rename_i inst hinst
    dsimp only at h ⊢
    cases herror : inst.repricingError with
    | some message => rfl
    | none =>
        simp only [herror] at h ⊢
        split at h
        · rename_i hsame
          simp only [calculateInstancePriceAdjustmentQuote] at hsame ⊢
          rw [← hsame]
          split
          · split
            · exact calculatePriceDiff_self _ _ _ _
            · rfl
          · rfl
        · exact absurd rfl h

/-- Without settlement there are no differences. -/
theorem previewItem_unsettled (db : Db) (now : Time) (newPrice : Cents) (instanceId : ℕ) :
    (previewItem db now newPrice false instanceId).priceDiff = 0 := by
  unfold previewItem
  split
  · rfl
  · dsimp only
    split <;> rfl

/-- The row of an item that has not failed. -/
theorem previewItem_row
    (h : (previewItem db now newPrice settleBalance instanceId).status ≠ .failed) :
    ∃ inst, db.instances instanceId = some inst ∧
      (previewItem db now newPrice settleBalance instanceId).userId
        = ((db.users inst.userId).map fun _ => inst.userId) ∧
      (previewItem db now newPrice settleBalance instanceId).instanceVersion
        = some inst.version := by
  unfold previewItem at h ⊢
  cases hinst : db.instances instanceId with
  | none => simp [hinst] at h
  | some inst =>
      simp only [hinst] at h ⊢
      cases herror : inst.repricingError with
      | some message => simp [herror] at h
      | none => exact ⟨inst, rfl, rfl, rfl⟩

/-- An id is taken once. -/
theorem nodup_foldl_addId (hnodup : ids.Nodup) : (instanceIds.foldl addId ids).Nodup := by
  induction instanceIds generalizing ids with
  | nil => exact hnodup
  | cons id instanceIds ih =>
      rw [List.foldl_cons]
      refine ih ?_
      unfold addId
      split
      · exact hnodup
      · rename_i hfresh
        exact List.concat_eq_append ▸ hnodup.concat hfresh

theorem nodup_of_parse {newPrice : ℚ} {expectations versions : List (ℕ × ℕ)} {price : Cents}
    (h : parseBatchPriceUpdateBody instanceIds newPrice expectations = .ok (ids, price, versions)) :
    ids.Nodup := by
  unfold parseBatchPriceUpdateBody at h
  split_ifs at h
  cases h
  exact nodup_foldl_addId List.nodup_nil

end Preview

/-! ## The batch -/

/-- The items that are settled, in their order. -/
def settlements (items : List BatchPriceUpdateItem) : List BatchPriceUpdateItem :=
  ((items.filter (·.status == .ready)).filter fun item =>
    item.userId.isSome && item.priceDiff != 0).insertionSort fun a b => a.settlesBefore b

section Batch

variable {db db' : Db} {e : Env} {now : Time} {ids instanceIds : List ℕ} {newPrice : ℚ}
  {price : Cents} {settleBalance : Bool} {expectations versions : List (ℕ × ℕ)}
  {items : List BatchPriceUpdateItem} {item : BatchPriceUpdateItem} {userId : ℕ}

theorem mem_settlements : item ∈ settlements items ↔
    item ∈ items ∧ item.status = .ready ∧ item.userId.isSome ∧ item.priceDiff ≠ 0 := by
  simp only [settlements, (List.perm_insertionSort _ _).mem_iff, List.mem_filter, beq_iff_eq,
    Bool.and_eq_true, bne_iff_ne, and_assoc]

theorem nodup_settlements (h : (items.map (·.id)).Nodup) :
    ((settlements items).map (·.id)).Nodup := by
  have hperm := (List.perm_insertionSort (fun a b => a.settlesBefore b = true)
    ((items.filter (·.status == .ready)).filter fun item =>
      item.userId.isSome && item.priceDiff != 0)).map (·.id)
  refine hperm.nodup_iff.mpr (h.sublist ?_)
  exact (List.filter_sublist.trans List.filter_sublist).map _

/-- What is settled of a user is his net difference. -/
theorem owed_settlements (hquiet : ∀ item ∈ items, item.status ≠ .ready → item.priceDiff = 0)
    (userId : ℕ) : owed (settlements items) userId = netDiff items userId := by
  have hperm := (List.perm_insertionSort (fun a b => a.settlesBefore b = true)
    ((items.filter (·.status == .ready)).filter fun item =>
      item.userId.isSome && item.priceDiff != 0)).filter (·.userId == some userId)
  have htotal : owed (settlements items) userId = owed ((items.filter (·.status == .ready)).filter
      fun item => item.userId.isSome && item.priceDiff != 0) userId :=
    (hperm.map BatchPriceUpdateItem.priceDiff).sum_eq
  rw [htotal, owed, netDiff, Keyed.total_filter, Keyed.total_filter, Keyed.total_filter,
    Keyed.total_filter]
  refine Keyed.total_congr fun item hitem => ?_
  -- an item that is not ready adds nothing on either side
  by_cases hready : item.status = .ready
  · by_cases huser : item.userId = some userId <;> by_cases hdiff : item.priceDiff = 0 <;>
      simp [hready, huser, hdiff]
  · simp [hready, hquiet item hitem hready]

theorem of_canSubmit (h : canSubmit db items = true) :
    (∀ item ∈ items, item.status ≠ .failed) ∧
      ∀ item ∈ items, item.priceDiff ≠ 0 → ∀ u, item.userId = some u →
        insufficientBalance db items u = false := by
  simp only [canSubmit, Bool.and_eq_true, List.all_eq_true, bne_iff_ne, Bool.or_eq_true,
    beq_iff_eq] at h
  refine ⟨h.1.2, fun item hitem hdiff u huser => ?_⟩
  have hall := (h.2 item hitem).resolve_left hdiff
  simpa [huser] using hall

/-- A balance that the preview takes for sufficient is short by rounding alone. -/
theorem impactBalanceAfter_eq_zero (h : insufficientBalance db items userId = false)
    (hshort : db.balanceOf userId < toUnits (netDiff items userId)) :
    impactBalanceAfter db items userId = 0 := by
  have hge : -10000 ≤ impactBalanceAfter db items userId := by
    simpa [insufficientBalance, impactBalanceAfter] using h
  have hneg : ((db.balanceOf userId - toUnits (netDiff items userId) : ℤ) : ℚ) / 1000000 ≤ 0 := by
    refine div_nonpos_of_nonpos_of_nonneg ?_ (by norm_num)
    exact_mod_cast (sub_neg.mpr hshort).le
  -- a whole number of cents between a ten-thousandth of a yuan below zero and zero
  have hwhole : ∀ cents : ℤ, cents ≤ 0 → -10000 ≤ cents * 1000000 → cents * 1000000 = 0 := by
    intro cents hround hge
    omega
  exact hwhole _ (Rounding.halfAway_nonpos hneg) hge

theorem buildPreview_quiet :
    ∀ item ∈ buildBatchPriceUpdatePreview db now ids price settleBalance,
      item.status ≠ .ready → item.priceDiff = 0 := by
  intro item hitem hready
  obtain ⟨id, -, rfl⟩ := List.mem_map.mp hitem
  exact previewItem_priceDiff hready

theorem buildPreview_nodup (db : Db) (now : Time) (price : Cents) (settleBalance : Bool)
    (hids : ids.Nodup) :
    ((buildBatchPriceUpdatePreview db now ids price settleBalance).map (·.id)).Nodup := by
  rw [buildBatchPriceUpdatePreview, map_previewItem_id]
  exact hids

/-- Where no item has failed, every item has its row and the row's version. -/
theorem buildPreview_row
    (h : ∀ item ∈ buildBatchPriceUpdatePreview db now ids price settleBalance,
      item.status ≠ .failed) :
    ∀ item ∈ buildBatchPriceUpdatePreview db now ids price settleBalance,
      ∃ inst, db.instances item.id = some inst ∧ item.instanceVersion = some inst.version := by
  intro item hitem
  have hvalid := h item hitem
  obtain ⟨id, -, rfl⟩ := List.mem_map.mp hitem
  obtain ⟨inst, hinst, -, hversion⟩ := previewItem_row hvalid
  exact ⟨inst, by rw [previewItem_id, hinst], hversion⟩

/-- The batch reaches its settlements with all prices rewritten. -/
theorem prepareBatch_ok
    (hparse : parseBatchPriceUpdateBody instanceIds newPrice expectations
      = .ok (ids, price, versions))
    (hversions : VersionsPreviewed versions
      (buildBatchPriceUpdatePreview db e.now ids price settleBalance))
    (hsubmit : canSubmit db (buildBatchPriceUpdatePreview db e.now ids price settleBalance)
      = true) :
    ∃ db₁, prepareBatch db e instanceIds newPrice settleBalance expectations
        = .ok (db₁, settlements (buildBatchPriceUpdatePreview db e.now ids price settleBalance)) ∧
      Repriced db db₁ ((buildBatchPriceUpdatePreview db e.now ids price settleBalance).filter
        (·.status == .ready)) := by
  have hitems := buildPreview_row (of_canSubmit hsubmit).1
  have hnodup := buildPreview_nodup db e.now price settleBalance (nodup_of_parse hparse)
  have hsettle : (if settleBalance then
      settlements (buildBatchPriceUpdatePreview db e.now ids price settleBalance) else [])
        = settlements (buildBatchPriceUpdatePreview db e.now ids price settleBalance) := by
    cases settleBalance with
    | true => rfl
    | false =>
        refine (List.eq_nil_iff_forall_not_mem.mpr fun item hitem => ?_).symm
        obtain ⟨hitem, -, -, hdiff⟩ := mem_settlements.mp hitem
        obtain ⟨id, -, rfl⟩ := List.mem_map.mp hitem
        exact hdiff (previewItem_unsettled db e.now price id)
  generalize hpreview : buildBatchPriceUpdatePreview db e.now ids price settleBalance = items at *
  have hcurrent : ∀ item ∈ items.filter (·.status == .ready),
      (db.instances item.id).map (·.version) = item.instanceVersion := by
    intro item hitem
    obtain ⟨inst, hinst, hversion⟩ := hitems item (List.mem_of_mem_filter hitem)
    rw [hinst, hversion, Option.map_some]
  obtain ⟨db₁, hrun, hrepriced⟩ := reprice_run (hnodup.sublist (List.filter_sublist.map _)) hcurrent
  refine ⟨db₁, ?_, hrepriced⟩
  have hmissing : ((items.filter (·.status != .failed)).any fun item =>
      ((versions.find? (·.1 == item.id)).map (·.2)).isNone) = false := by
    rw [List.any_eq_false]
    intro item hitem
    have hmem := List.mem_of_mem_filter hitem
    obtain ⟨inst, -, hversion⟩ := hitems item hmem
    rw [hversions item hmem, hversion]
    exact Bool.false_ne_true
  have hstale : ((items.filter (·.status != .failed)).any fun item =>
      (versions.find? (·.1 == item.id)).map (·.2) != item.instanceVersion) = false := by
    rw [List.any_eq_false]
    intro item hitem
    rw [hversions item (List.mem_of_mem_filter hitem)]
    simp
  rw [buildBatchPriceUpdatePreview] at hpreview
  simp only [prepareBatch, hparse, hpreview, hmissing, hstale, hsubmit, hrun, Bool.false_eq_true,
    if_false, Bool.not_true]
  rw [← hsettle]
  rfl

/-- A ready item with a user is payable once the prices are rewritten. -/
theorem payable_settlements {db₁ : Db} {changed : List BatchPriceUpdateItem}
    (hrepriced : Repriced db db₁ changed) :
    ∀ item ∈ settlements (buildBatchPriceUpdatePreview db now ids price settleBalance),
      Payable db₁ item := by
  intro item hitem
  obtain ⟨hitem, hready, huser, hdiff⟩ := mem_settlements.mp hitem
  obtain ⟨id, -, rfl⟩ := List.mem_map.mp hitem
  have hvalid : (previewItem db now price settleBalance id).status ≠ .failed := by simp [hready]
  obtain ⟨inst, hinst, huserId, -⟩ := previewItem_row hvalid
  obtain ⟨inst', hinst', huser', -⟩ := hrepriced.row hinst
  rw [huserId, Option.isSome_map] at huser
  obtain ⟨user, hfound⟩ := Option.isSome_iff_exists.mp huser
  refine ⟨⟨inst', by rwa [previewItem_id], ?_, ?_⟩, hdiff⟩
  · rw [huserId, hfound, huser', Option.map_some]
  · rw [hrepriced.rest, huser']
    exact huser

/-- Refunds among the settlements are refunds of the batch. -/
theorem RefundHostedBy.of_settlements {db₁ : Db} {changed : List BatchPriceUpdateItem}
    (hrepriced : Repriced db db₁ changed) (hrows : ∀ item ∈ items, ∃ inst,
      db.instances item.id = some inst ∧ item.instanceVersion = some inst.version)
    (h : RefundHostedBy db₁ (settlements items) userId) : RefundHostedBy db items userId := by
  obtain ⟨item, hitem, hneg, hhosted⟩ := h
  have hmem := (mem_settlements.mp hitem).1
  obtain ⟨inst, hinst, -⟩ := hrows item hmem
  exact ⟨item, hmem, hneg, hrepriced.same_host hinst ▸ hhosted⟩

/-- A run over all settlements is what the preview has announced. -/
theorem BatchSettled.of_run {db₁ : Db} {logs : List BalanceLog}
    (hrepriced : Repriced db db₁ (items.filter (·.status == .ready)))
    (hrows : ∀ item ∈ items, ∃ inst,
      db.instances item.id = some inst ∧ item.instanceVersion = some inst.version)
    (hquiet : ∀ item ∈ items, item.status ≠ .ready → item.priceDiff = 0)
    (hsettled : SettledRun db₁ db' (settlements items) logs) : BatchSettled db db' items := by
  have hdrawn (u : ℕ) : panelDrawn u logs ≠ 0 → RefundHostedBy db items u := fun hne =>
    .of_settlements hrepriced hrows ((hsettled.drawn u).2 hne)
  have hfinal (u : ℕ) : db'.balanceOf u =
      db.balanceOf u - toUnits (netDiff items u) - panelDrawn u logs := by
    rw [hsettled.balance, owed_settlements hquiet, hrepriced.balanceOf]
  refine ⟨?_, ?_, ⟨logs, ?_, fun u => ⟨hfinal u, (hsettled.drawn u).1, hdrawn u⟩⟩,
    fun u hnone => ?_⟩
  · intro item hitem hready
    rw [hsettled.instances]
    exact hrepriced.rows item (List.mem_filter.mpr ⟨hitem, by simpa using hready⟩)
  · intro k hk
    rw [hsettled.instances]
    refine hrepriced.others k fun item hitem => ?_
    obtain ⟨hitem, hready⟩ := List.mem_filter.mp hitem
    exact hk item hitem (by simpa using hready)
  · rw [hsettled.balanceLogs, hrepriced.rest]
  · have hzero : panelDrawn u logs = 0 := by
      by_contra hne
      exact hnone (hdrawn u hne)
    rw [hfinal, hzero, sub_zero]
    rfl

/-- Where the settlements break off, the preview could not have known better
but for its rounding. -/
theorem canStopAt_of_error {db₁ db₂ : Db} {before after : List BatchPriceUpdateItem}
    {logs : List BalanceLog} {message : String}
    (hrepriced : Repriced db db₁ (items.filter (·.status == .ready)))
    (hrows : ∀ item ∈ items, ∃ inst,
      db.instances item.id = some inst ∧ item.instanceVersion = some inst.version)
    (hquiet : ∀ item ∈ items, item.status ≠ .ready → item.priceDiff = 0)
    (hnodup : (items.map (·.id)).Nodup)
    (hsufficient : ∀ item ∈ items, item.priceDiff ≠ 0 → ∀ u, item.userId = some u →
      insufficientBalance db items u = false)
    (hsplit : settlements items = before ++ item :: after) (hpay : Payable db₂ item)
    (hsettled : SettledRun db₁ db₂ before logs) (herror : settleItem e db₂ item = .error message) :
    item ∈ items ∧ CanStopAt db e items item := by
  have hitem : item ∈ settlements items := by simp [hsplit]
  have hmem := (mem_settlements.mp hitem).1
  refine ⟨hmem, ?_⟩
  rcases hpay.priceDiff.lt_or_gt with hneg | hpos
  · -- a refund: the owner is the one that the batch started with
    obtain ⟨-, owner, -, howner, hlocked⟩ | ⟨db₃, logs', hok, -⟩ := settleItem_refund e hpay hneg
    · obtain ⟨inst, hinst, -⟩ := hrows item hmem
      have hids : ∀ i ∈ before, i.id ≠ item.id := by
        intro i hi heq
        have hn := nodup_settlements hnodup
        rw [hsplit, List.map_append, List.map_cons] at hn
        exact (List.nodup_append.mp hn).2.2 _ (List.mem_map_of_mem hi) _ List.mem_cons_self heq
      rw [hsettled.same_host hids, hrepriced.same_host hinst] at howner
      exact .inl ⟨hneg, owner, howner, hlocked⟩
    · rw [herror] at hok
      cases hok
  · -- a charge: what came before it and it are at most the net difference
    obtain ⟨-, u, -, huser, hshort⟩ | ⟨db₃, logs', hok, -⟩ := settleItem_charge e hpay hpos
    · refine .inr ⟨hpos, u, huser, ?_⟩
      by_cases hdrawn : panelDrawn u logs = 0
      · have hle : owed before u + item.priceDiff ≤ netDiff items u := by
          rw [← owed_settlements hquiet, hsplit]
          refine owed_le_of_charge ?_ huser hpos
          rw [← hsplit]
          refine pairwise_settlesBefore fun i hi => ?_
          exact (Bool.and_eq_true _ _ ▸ (List.mem_filter.mp hi).2).1
        have hunits : toUnits (owed before u + item.priceDiff) ≤ toUnits (netDiff items u) :=
          mul_le_mul_of_nonneg_right hle (by norm_num)
        have hless : db.balanceOf u < toUnits (netDiff items u) := by
          rw [hsettled.balance, hrepriced.balanceOf, hdrawn] at hshort
          rw [toUnits_add] at hunits
          linarith
        exact .inr ⟨impactBalanceAfter_eq_zero
          (hsufficient item hmem hpay.priceDiff u huser) hless, hless⟩
      · obtain ⟨i, hi, hrefund⟩ := (hsettled.drawn u).2 hdrawn
        refine .inl (.of_settlements hrepriced hrows ⟨i, ?_, hrefund⟩)
        rw [hsplit]
        exact List.mem_append_left _ hi
    · rw [herror] at hok
      cases hok

/-- A month at 31.00 is repriced to 20.00 for user 1, whose instance is hosted by
user 2, and a month at 10.00 to 20.00 for user 2 on the administrator's host. -/
def hostedBatch (balance : Units) : Db where
  users id := match id with
    | 1 => some {}
    | 2 => some { balance }
    | 9 => some { role := .admin }
    | _ => none
  hosts id := match id with
    | 5 => some { userId := 2 }
    | 6 => some { userId := 9 }
    | _ => none
  instances id := match id with
    | 10 => some { userId := 1, hostId := 5, status := .running, packagePlanId := some 1
                   billingPrice := some 3100, billingCycle := some 1, expiresAt := some freezeMs }
    | 11 => some { userId := 2, hostId := 6, status := .running, packagePlanId := some 1
                   billingPrice := some 1000, billingCycle := some 1, expiresAt := some freezeMs }
    | _ => none

end Batch

end Incudal
