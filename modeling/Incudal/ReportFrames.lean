/-
# `ReportFrames` — what a report leaves alone

Whatever the payload is, a report touches the instances of its host only, the
status of none that is creating, suspended or deleted, and applies each name
once.  What it does not leave alone is an instance in error: the one status it
writes over that a refund may stand behind.
-/
import Incudal.AgentReport

namespace Incudal

theorem exceptMap_eq_ok {ε α β : Type} {x : Except ε α} {f : α → β} {b : β} :
    x.map f = .ok b ↔ ∃ a, x = .ok a ∧ f a = b := by
  cases x with
  | error e => simp [Except.map]
  | ok a => simp [Except.map]

/-! ## Hourly billing touches one instance -/

/-- What hourly billing may make of a status. -/
def mayBecome (status status' : InstanceStatus) : Prop :=
  status' = status ∨ (status = .running ∨ status = .stopped) ∧ status' = .suspended

theorem mayBecome_trans {a b c : InstanceStatus} (h : mayBecome a b) (h' : mayBecome b c) :
    mayBecome a c := by
  rcases h with rfl | ⟨ha, rfl⟩
  · exact h'
  · rcases h' with rfl | ⟨hb, -⟩
    · exact .inr ⟨ha, rfl⟩
    · rcases hb with hb | hb <;> exact absurd hb (by decide)

/-- Of the rows of instances and their accounts only those of `i` have changed, its status
as hourly billing may. -/
structure HourlyTouched (i : ℕ) (db db' : Db) : Prop where
  instances : ∃ g : Instance → Instance,
    db'.instances = Function.update db.instances i ((db.instances i).map g) ∧
      ∀ inst, (g inst).hostId = inst.hostId ∧ mayBecome inst.status (g inst).status
  accounts : ∀ j, j ≠ i → db'.hourlyAccount j = db.hourlyAccount j

namespace HourlyTouched

variable {i : ℕ} {db db' db'' : Db}

theorem of_eq (hinstances : db'.instances = db.instances)
    (haccounts : db'.hourlyAccounts = db.hourlyAccounts) : HourlyTouched i db db' where
  instances := by
    refine ⟨id, ?_, fun inst => ⟨rfl, .inl rfl⟩⟩
    rw [hinstances, Option.map_id, id, Function.update_eq_self]
  accounts := fun j _ => by rw [Db.hourlyAccount, Db.hourlyAccount, haccounts]

theorem refl (db : Db) : HourlyTouched i db db := of_eq rfl rfl

theorem trans (h : HourlyTouched i db db') (h' : HourlyTouched i db' db'') :
    HourlyTouched i db db'' where
  instances := by
    obtain ⟨g, hg, hkept⟩ := h.instances
    obtain ⟨g', hg', hkept'⟩ := h'.instances
    refine ⟨g' ∘ g, ?_, fun inst => ?_⟩
    · rw [hg', hg, Function.update_self, Function.update_idem, Option.map_map]
    · obtain ⟨hhost, hstatus⟩ := hkept inst
      obtain ⟨hhost', hstatus'⟩ := hkept' (g inst)
      exact ⟨hhost'.trans hhost, mayBecome_trans hstatus hstatus'⟩
  accounts := fun j hj => (h'.accounts j hj).trans (h.accounts j hj)

theorem updateHourly (db : Db) {f : HourlyBillingAccount → HourlyBillingAccount}
    (hf : ∀ a, (f a).instanceId = a.instanceId) : HourlyTouched i db (db.updateHourly i f) where
  instances := (refl db).instances
  accounts := fun _ hj => Keyed.lookup_modify_of_ne (fun a => hf a) hj

theorem suspendHourly (db : Db) {statuses : List InstanceStatus}
    (hstatuses : ∀ s ∈ statuses, s = .running ∨ s = .stopped) :
    HourlyTouched i db (db.suspendHourly i statuses) where
  instances := by
    refine ⟨_, rfl, fun inst => ?_⟩
    split
    · rename_i hmem
      exact ⟨rfl, .inr ⟨hstatuses _ hmem, rfl⟩⟩
    · exact ⟨rfl, .inl rfl⟩
  accounts := fun _ _ => rfl

theorem ite {c : Prop} [Decidable c] (h : HourlyTouched i db db') :
    HourlyTouched i db (if c then db' else db) := by
  split
  · exact h
  · exact refl db

theorem reserve (db : Db) (userId : ℕ) (amount balance : Units) :
    HourlyTouched i db (reserveForHourlyCharge db userId i amount balance).1 := by
  unfold reserveForHourlyCharge
  split
  · exact refl db
  · split
    · exact refl db
    · exact of_eq rfl rfl

theorem income (db : Db) (now : Time) (amount : ℚ) :
    HourlyTouched i db (createHourlyHostingIncome db now i amount) := by
  unfold createHourlyHostingIncome
  split
  · exact refl db
  · split
    · exact refl db
    · exact of_eq rfl rfl

theorem charge (db : Db) (now : Time) (account : HourlyBillingAccount)
    (hid : account.instanceId = i) (inst : Instance) (user : User) (seconds : ℕ)
    (actualAmount : ℚ) (additional : Units) :
    HourlyTouched i db (chargeHourly db now account inst user seconds actualAmount additional).1 := by
  subst hid
  unfold chargeHourly
  dsimp only
  refine trans ?_ (ite (suspendHourly _ (by simp)))
  refine trans ?_ (updateHourly _ fun _ => rfl)
  refine trans ?_ (income _ now _)
  refine trans ?_ (ite (of_eq rfl rfl))
  refine trans ?_ (ite (of_eq rfl rfl))
  exact reserve db inst.userId additional user.balance

theorem settle {now : Time} {rates : HourlyRates} {force suspended : Bool}
    (h : settleInTransaction db now rates i force = .ok (db', suspended)) :
    HourlyTouched i db db' := by
  unfold settleInTransaction at h
  split at h
  · obtain ⟨rfl, -⟩ := Prod.mk.inj (Except.ok.inj h)
    exact refl db
  · obtain ⟨rfl, -⟩ := Prod.mk.inj (Except.ok.inj h)
    exact refl db
  · rename_i account inst haccount hinst
    split at h
    · obtain ⟨rfl, -⟩ := Prod.mk.inj (Except.ok.inj h)
      exact refl db
    · split at h
      · obtain ⟨rfl, -⟩ := Prod.mk.inj (Except.ok.inj h)
        exact updateHourly db fun _ => rfl
      · split at h
        · exact absurd h (by simp)
        · dsimp only at h
          split at h
          · exact absurd h (by simp)
          · split at h
            · exact absurd h (by simp)
            · exact absurd h (by simp)
            · rename_i pricing _ amount _ _ _ additional user _ _
              have hdb : (chargeHourly db now account inst user
                  (activeSeconds account.lastSettledAt now) amount additional).1 = db' :=
                congrArg Prod.fst (Except.ok.inj h)
              rw [← hdb]
              exact charge db now account (Keyed.mem_of_lookup haccount).2 inst user _ amount
                additional

theorem suspend (db : Db) : HourlyTouched i db (suspendAccount db i) := by
  unfold suspendAccount
  refine trans ?_ (suspendHourly _ (by simp))
  exact updateHourly db fun _ => rfl

theorem activate {now : Time} {rates : HourlyRates} {active : Bool}
    (h : activateHourlyBilling db now rates i = .ok (db', active)) : HourlyTouched i db db' := by
  unfold activateHourlyBilling at h
  split at h
  · obtain ⟨rfl, -⟩ := Prod.mk.inj (Except.ok.inj h)
    exact refl db
  · obtain ⟨rfl, -⟩ := Prod.mk.inj (Except.ok.inj h)
    exact refl db
  · split at h
    · obtain ⟨rfl, -⟩ := Prod.mk.inj (Except.ok.inj h)
      exact refl db
    · obtain ⟨rfl, -⟩ := Prod.mk.inj (Except.ok.inj h)
      exact suspendHourly db (by simp)
    · obtain ⟨rfl, -⟩ := Prod.mk.inj (Except.ok.inj h)
      exact refl db
    · split at h
      · obtain ⟨rfl, -⟩ := Prod.mk.inj (Except.ok.inj h)
        exact suspend db
      · dsimp only at h
        split at h
        · split at h
          · exact absurd h (by simp)
          · exact absurd h (by simp)
          · split at h
            · obtain ⟨rfl, -⟩ := Prod.mk.inj (Except.ok.inj h)
              exact (reserve db _ _ _).trans (suspend _)
            · obtain ⟨rfl, -⟩ := Prod.mk.inj (Except.ok.inj h)
              exact (reserve db _ _ _).trans (updateHourly _ fun _ => rfl)
        · obtain ⟨rfl, -⟩ := Prod.mk.inj (Except.ok.inj h)
          exact updateHourly db fun _ => rfl

theorem ended {status : HourlyBillingStatus} {now : Time} {rates : HourlyRates} {suspended : Bool}
    (h : endHourlyBilling status db now rates i = .ok (db', suspended)) :
    HourlyTouched i db db' := by
  unfold endHourlyBilling at h
  split at h
  · exact absurd h (by simp)
  · rename_i settled _ hsettle
    refine (settle hsettle).trans ?_
    split at h
    · obtain ⟨rfl, -⟩ := Prod.mk.inj (Except.ok.inj h)
      exact refl _
    · obtain ⟨rfl, -⟩ := Prod.mk.inj (Except.ok.inj h)
      exact refl _
    · split at h
      · obtain ⟨rfl, -⟩ := Prod.mk.inj (Except.ok.inj h)
        exact refl _
      · dsimp only at h
        split at h
        · split at h
          · exact absurd h (by simp)
          · obtain ⟨rfl, -⟩ := Prod.mk.inj (Except.ok.inj h)
            refine trans ?_ (updateHourly _ fun _ => rfl)
            exact of_eq rfl rfl
        · obtain ⟨rfl, -⟩ := Prod.mk.inj (Except.ok.inj h)
          exact updateHourly _ fun _ => rfl

end HourlyTouched

/-- What hourly billing does about a reported status. -/
theorem followHourly_touched {db db' : Db} {e : ReportEnv} {i : ℕ} {status : InstanceStatus}
    (h : followHourly db e i status = .ok db') : HourlyTouched i db db' := by
  unfold followHourly at h
  split at h
  · obtain ⟨⟨db₁, active⟩, hactivate, rfl⟩ := exceptMap_eq_ok.mp h
    exact .activate hactivate
  · obtain ⟨⟨db₁, suspended⟩, hpause, rfl⟩ := exceptMap_eq_ok.mp h
    exact .ended hpause
  · obtain rfl := Except.ok.inj h
    exact .refl db

/-! ## An item touches one instance -/

/-- The statuses that a report must leave alone. -/
def InstanceStatus.isHeld (status : InstanceStatus) : Prop :=
  status = .creating ∨ status = .suspended ∨ status = .deleted

/-- The rows of an instance are as they were. -/
structure SameRows (w w' : ReportWorld) (i : ℕ) : Prop where
  inst : w'.db.instances i = w.db.instances i
  columns : w'.columns i = w.columns i
  account : w'.db.hourlyAccount i = w.db.hourlyAccount i

/-- The host of an instance stays, and its status if that is held. -/
def HeldKept (w w' : ReportWorld) (i : ℕ) : Prop :=
  ∀ inst, w.db.instances i = some inst → ∃ inst', w'.db.instances i = some inst' ∧
    inst'.hostId = inst.hostId ∧ (inst.status.isHeld → inst'.status = inst.status)

/-- Of the instances only `i` has changed, and not in a held status. -/
structure ReportTouched (i : ℕ) (w w' : ReportWorld) : Prop where
  others : ∀ j, j ≠ i → SameRows w w' j
  kept : HeldKept w w' i

section Touched

variable {i : ℕ} {w w' w'' : ReportWorld} {e : ReportEnv} {seen : ReportedDbInstance}
  {item : ReportItem}

theorem SameRows.refl (w : ReportWorld) (i : ℕ) : SameRows w w i := ⟨rfl, rfl, rfl⟩

theorem SameRows.trans (h : SameRows w w' i) (h' : SameRows w' w'' i) : SameRows w w'' i :=
  ⟨h'.inst.trans h.inst, h'.columns.trans h.columns, h'.account.trans h.account⟩

theorem SameRows.heldKept (h : SameRows w w' i) : HeldKept w w' i :=
  fun inst hinst => ⟨inst, h.inst.trans hinst, rfl, fun _ => rfl⟩

theorem HeldKept.trans (h : HeldKept w w' i) (h' : HeldKept w' w'' i) : HeldKept w w'' i := by
  intro inst hinst
  obtain ⟨inst', hinst', hhost, hheld⟩ := h inst hinst
  obtain ⟨inst'', hinst'', hhost', hheld'⟩ := h' inst' hinst'
  refine ⟨inst'', hinst'', hhost'.trans hhost, fun hin => ?_⟩
  have hsame := hheld hin
  exact (hheld' (hsame ▸ hin)).trans hsame

theorem ReportTouched.refl (w : ReportWorld) : ReportTouched i w w :=
  ⟨fun j _ => .refl w j, (SameRows.refl w i).heldKept⟩

theorem ReportTouched.trans (h : ReportTouched i w w') (h' : ReportTouched i w' w'') :
    ReportTouched i w w'' :=
  ⟨fun j hj => (h.others j hj).trans (h'.others j hj), h.kept.trans h'.kept⟩

/-- Hourly billing does not touch a held status either. -/
theorem HourlyTouched.report {db' : Db} (h : HourlyTouched i w.db db') :
    ReportTouched i w { w with db := db' } where
  others := by
    intro j hj
    obtain ⟨g, hg, -⟩ := h.instances
    refine ⟨?_, rfl, h.accounts j hj⟩
    show db'.instances j = w.db.instances j
    rw [hg, Function.update_of_ne hj]
  kept := by
    intro inst hinst
    obtain ⟨g, hg, hkept⟩ := h.instances
    obtain ⟨hhost, hstatus⟩ := hkept inst
    refine ⟨g inst, ?_, hhost, fun hheld => ?_⟩
    · show db'.instances i = some (g inst)
      rw [hg, Function.update_self, hinst, Option.map_some]
    · rcases hstatus with hsame | ⟨hlive, -⟩
      · exact hsame
      · rw [InstanceStatus.isHeld] at hheld
        rcases hlive with h | h <;> simp [h] at hheld

/-- The status is written over one that is not held. -/
theorem writeReportedStatus_touched (w : ReportWorld) (now : Time) (item : ReportItem)
    (status : InstanceStatus) (hseen : ¬seen.status.isHeld) :
    ReportTouched seen.id w (writeReportedStatus w now seen item status).1 := by
  unfold writeReportedStatus
  split
  · exact .refl w
  · rename_i inst hinst
    split
    · rename_i hsame
      refine ⟨fun j hj => ⟨?_, ?_, rfl⟩, fun row hrow => ?_⟩
      · exact Function.update_of_ne hj _ _
      · exact Function.update_of_ne hj _ _
      · obtain rfl := Option.some.inj (hrow.symm.trans hinst)
        refine ⟨{ row with status }, ?_, rfl, fun hheld => absurd (hsame ▸ hheld) hseen⟩
        show Function.update w.db.instances seen.id _ seen.id = _
        rw [Function.update_self, hrow, Option.map_some]
    · exact .refl w

theorem not_isHeld_of_shouldSync {status : InstanceStatus} {reported : Option InstanceStatus}
    (h : shouldSyncStatus status reported = true) : ¬status.isHeld := by
  rintro (rfl | rfl | rfl) <;> simp [shouldSyncStatus] at h

theorem syncReportedStatus_touched (w : ReportWorld) (e : ReportEnv) (seen : ReportedDbInstance)
    (item : ReportItem) :
    ReportTouched seen.id w (syncReportedStatus w e seen item).1 := by
  unfold syncReportedStatus
  split
  · exact .refl w
  · rename_i status hstatus
    split
    · exact .refl w
    · rename_i hsync
      have hwrite := writeReportedStatus_touched w e.now item status
        (not_isHeld_of_shouldSync (by simpa using hsync))
      dsimp only
      split
      · split
        · exact hwrite
        · rename_i db hfollow
          exact hwrite.trans (followHourly_touched hfollow).report
      · exact hwrite

/-- The counters leave the database of the billing alone. -/
theorem syncReportedTraffic_db (w : ReportWorld) (e : ReportEnv) (seen : ReportedDbInstance)
    (item : ReportItem) (result : ItemResult) :
    (syncReportedTraffic w e seen item result).1.db = w.db := by
  unfold syncReportedTraffic
  split
  · rfl
  · split
    · rfl
    · dsimp only
      split <;> rfl

theorem syncReportedTraffic_touched (w : ReportWorld) (e : ReportEnv)
    (seen : ReportedDbInstance) (item : ReportItem) (result : ItemResult) :
    ReportTouched seen.id w (syncReportedTraffic w e seen item result).1 := by
  have hdb := syncReportedTraffic_db w e seen item result
  refine ⟨fun j hj => ⟨by rw [hdb], ?_, by rw [hdb]⟩, fun inst hinst => ?_⟩
  · unfold syncReportedTraffic
    split
    · rfl
    · split
      · rfl
      · dsimp only
        split
        · exact Function.update_of_ne hj _ _
        · rfl
  · exact ⟨inst, by rw [hdb]; exact hinst, rfl, fun _ => rfl⟩

theorem processOneAgentInstanceReport_touched (w : ReportWorld) (e : ReportEnv)
    (seen : ReportedDbInstance) (item : ReportItem) :
    ReportTouched seen.id w (processOneAgentInstanceReport w e seen item).1 := by
  have hstatus := syncReportedStatus_touched w e seen item
  unfold processOneAgentInstanceReport
  split
  · rename_i heq
    rw [heq] at hstatus
    exact hstatus
  · rename_i heq
    rw [heq] at hstatus
    exact hstatus.trans (syncReportedTraffic_touched _ _ _ _ _)

end Touched

/-! ## An instance in error -/

section Error

variable {w : ReportWorld} {e : ReportEnv} {seen : ReportedDbInstance} {item : ReportItem}
  {db : Db} {i : ℕ} {account : HourlyBillingAccount} {inst : Instance}

/-- A closed account is left alone. -/
theorem followHourly_closed {status : InstanceStatus} (haccount : db.hourlyAccount i = some account)
    (hclosed : account.status = .closed) (hinst : db.instances i = some inst) :
    followHourly db e i status = .ok db := by
  have hsettle : settleInTransaction db e.now (e.rates i) i true = .ok (db, false) := by
    simp [settleInTransaction, haccount, hinst, hclosed]
  unfold followHourly
  split
  · simp [activateHourlyBilling, haccount, hinst, hclosed, Except.map]
  · simp [pauseHourlyBilling, endHourlyBilling, hsettle, haccount, hinst, hclosed, Except.map]
  · rfl

/-- An instance in error takes the status that is reported, whatever stands behind the error. -/
theorem processOneAgentInstanceReport_error (e : ReportEnv) (item : ReportItem)
    (hinst : w.db.instances seen.id = some inst)
    (herror : inst.status = .error) (hseen : seen.status = .error)
    (hclosed : seen.billingMode = .hourly →
      ∃ account, w.db.hourlyAccount seen.id = some account ∧ account.status = .closed) :
    ∃ inst', (processOneAgentInstanceReport w e seen item).1.db.instances seen.id = some inst' ∧
      inst'.status = item.status.getD .error := by
  have hrow : ∃ inst', (syncReportedStatus w e seen item).1.db.instances seen.id = some inst' ∧
      inst'.status = item.status.getD .error := by
    cases hstatus : item.status with
    | none => exact ⟨inst, by simpa [syncReportedStatus, hstatus] using hinst, herror⟩
    | some status =>
      have hwrite : (writeReportedStatus w e.now seen item status).1.db.instances seen.id
          = some { inst with status } := by
        simp [writeReportedStatus, hinst, herror, hseen, ReportWorld.updateColumns,
          Db.updateInstance]
      have hupdated : (writeReportedStatus w e.now seen item status).2 = true := by
        simp [writeReportedStatus, hinst, herror, hseen]
      have haccounts : (writeReportedStatus w e.now seen item status).1.db.hourlyAccount seen.id
          = w.db.hourlyAccount seen.id := by
        simp only [writeReportedStatus, hinst, herror, hseen, if_true]
        rfl
      refine ⟨{ inst with status }, ?_, rfl⟩
      have hsync : shouldSyncStatus seen.status (some status) = true := by
        simp [shouldSyncStatus, hseen]
      simp only [syncReportedStatus, hstatus, hsync, Bool.not_true, Bool.false_eq_true, if_false,
        hupdated, true_and]
      split
      · rename_i hhourly
        obtain ⟨account, haccount, hstatus⟩ := hclosed hhourly
        rw [followHourly_closed (haccounts.trans haccount) hstatus hwrite]
        exact hwrite
      · exact hwrite
  unfold processOneAgentInstanceReport
  split
  · rename_i heq
    rw [heq] at hrow
    exact hrow
  · rename_i heq
    rw [heq] at hrow
    rw [syncReportedTraffic_db]
    exact hrow

end Error

/-! ## The items -/

section Items

variable {w : ReportWorld} {e : ReportEnv} {hostId : ℕ} {instances : List ReportedDbInstance}
  {items : List ReportItem} {names : List Text} {name : Text} {seen : ReportedDbInstance}

/-- A name is taken once, and not when it has been seen. -/
theorem normalizeReportItems_names (seenNames : List Text) (raws : List JsValue) :
    ((normalizeReportItems seenNames raws).map ReportItem.name).Nodup ∧
      ∀ item ∈ normalizeReportItems seenNames raws, item.name ∉ seenNames := by
  induction raws generalizing seenNames with
  | nil => exact ⟨List.nodup_nil, by simp [normalizeReportItems]⟩
  | cons raw raws ih =>
    unfold normalizeReportItems
    split
    · exact ih seenNames
    · rename_i name _
      split
      · exact ih seenNames
      · rename_i hfresh
        obtain ⟨hnodup, hrest⟩ := ih (name :: seenNames)
        constructor
        · refine List.nodup_cons.mpr ⟨fun hmem => ?_, hnodup⟩
          obtain ⟨item, hitem, hname⟩ := List.mem_map.mp hmem
          exact hrest item hitem (hname ▸ List.mem_cons_self)
        · intro item hitem
          rcases List.mem_cons.mp hitem with rfl | hitem
          · exact hfresh
          · exact fun h => hrest item hitem (List.mem_cons_of_mem _ h)

theorem nodup_normalizeAgentInstanceItems (payload : JsValue) :
    ((normalizeAgentInstanceItems payload).map ReportItem.name).Nodup := by
  unfold normalizeAgentInstanceItems
  split
  · exact (normalizeReportItems_names _ _).1
  · exact List.nodup_nil

/-- What the report finds under a name is an instance of the host, as it stands. -/
theorem findReported_spec
    (h : instanceByIncusId (w.findReported hostId names) name = some seen) :
    (w.columns seen.id).incusId = name ∧ ∃ inst, w.db.instances seen.id = some inst ∧
      inst.hostId = hostId ∧ seen.status = inst.status ∧ seen.billingMode = inst.billingMode := by
  unfold instanceByIncusId at h
  have hmem := List.mem_reverse.mp (List.mem_of_find?_eq_some h)
  have hname : seen.incusId = name := by simpa using List.find?_some h
  obtain ⟨id, -, hid⟩ := List.mem_filterMap.mp hmem
  split at hid
  · exact absurd hid (by simp)
  · rename_i inst hinst
    split_ifs at hid with hfound
    obtain rfl := Option.some.inj hid
    exact ⟨hname, inst, hinst, hfound.1, rfl, rfl⟩

/-- The instances that are found under the names of items. -/
def ReportsOn (instances : List ReportedDbInstance) (items : List ReportItem) (i : ℕ) : Prop :=
  ∃ item ∈ items, ∃ seen, instanceByIncusId instances item.name = some seen ∧ seen.id = i

/-- Items leave the other instances alone, and held statuses. -/
theorem processItems_touched (e : ReportEnv) (instances : List ReportedDbInstance)
    (items : List ReportItem) (w : ReportWorld) (r : AgentInstanceReportResult) :
    let w' := (processItems e instances items w r).1
    (∀ i, ¬ReportsOn instances items i → SameRows w w' i) ∧ ∀ i, HeldKept w w' i := by
  induction items generalizing w r with
  | nil => exact ⟨fun i _ => .refl w i, fun i => (SameRows.refl w i).heldKept⟩
  | cons item items ih =>
    have hrest (i : ℕ) (h : ¬ReportsOn instances (item :: items) i) :
        ¬ReportsOn instances items i := by
      rintro ⟨other, hother, hfound⟩
      exact h ⟨other, List.mem_cons_of_mem _ hother, hfound⟩
    unfold processItems
    cases hfound : instanceByIncusId instances item.name with
    | none =>
      obtain ⟨hsame, hkept⟩ := ih w r.skip
      exact ⟨fun i hi => hsame i (hrest i hi), hkept⟩
    | some seen =>
      have hone := processOneAgentInstanceReport_touched w e seen item
      obtain ⟨hsame, hkept⟩ := ih (processOneAgentInstanceReport w e seen item).1
        (r.add item seen (processOneAgentInstanceReport w e seen item).2)
      refine ⟨fun i hi => ?_, fun i => ?_⟩
      · have hne : i ≠ seen.id := fun h => hi ⟨item, List.mem_cons_self, seen, hfound, h.symm⟩
        exact (hone.others i hne).trans (hsame i (hrest i hi))
      · by_cases hi : i = seen.id
        · subst hi
          exact hone.kept.trans (hkept _)
        · exact (hone.others i hi).heldKept.trans (hkept i)

/-- What has been applied: each item that an instance is found for. -/
theorem processItems_applied (w : ReportWorld) (r : AgentInstanceReportResult) :
    ((processItems e instances items w r).2.applied.map Prod.fst).Sublist
      (r.applied.map Prod.fst ++ items.map ReportItem.name) := by
  induction items generalizing w r with
  | nil => simp [processItems]
  | cons item items ih =>
    unfold processItems
    cases instanceByIncusId instances item.name with
    | none =>
      refine (ih w r.skip).trans ?_
      rw [List.map_cons]
      exact (List.Sublist.refl _).append (List.sublist_cons_self _ _)
    | some seen =>
      refine (ih _ _).trans ?_
      simp only [AgentInstanceReportResult.add, List.map_append, List.map_cons, List.map_nil,
        List.append_assoc, List.singleton_append]
      exact List.Sublist.refl _

theorem processItems_append (xs ys : List ReportItem) (w : ReportWorld)
    (r : AgentInstanceReportResult) :
    processItems e instances (xs ++ ys) w r
      = processItems e instances ys (processItems e instances xs w r).1
          (processItems e instances xs w r).2 := by
  induction xs generalizing w r with
  | nil => rfl
  | cons item xs ih =>
    rw [List.cons_append, processItems, processItems]
    cases instanceByIncusId instances item.name with
    | none => exact ih w r.skip
    | some seen => exact ih _ _

end Items

/-! ## The report -/

/-- The instance stands in error, and its failed provision has been refunded: a package
instance has nothing charged that is not refunded, an hourly one a closed account. -/
def Db.refundedAfterFailure (db : Db) (i : ℕ) : Prop :=
  ∃ inst, db.instances i = some inst ∧ inst.status = .error ∧
    match inst.billingMode with
    | .package => failedProvisionRefund db i = 0 ∧
        ∃ record ∈ db.billingRecords, record.instanceId = i ∧ record.type = .refund
    | .hourly => ∃ account, db.hourlyAccount i = some account ∧ account.status = .closed

/-- What is released of an hourly account closes it. -/
theorem closed_of_releaseFailedHourly {db db' : Db} {i userId : ℕ} {released : Units}
    (h : releaseFailedHourly db i userId = .ok (db', released)) (hreleased : 0 < released) :
    ∃ account, db'.hourlyAccount i = some account ∧ account.status = .closed := by
  unfold releaseFailedHourly at h
  split at h
  · cases h
    exact absurd hreleased (lt_irrefl _)
  rename_i account haccount
  dsimp only at h
  split at h
  · split at h
    · cases h
    · cases h
      exact ⟨_, Keyed.lookup_modify_self (fun _ => rfl) haccount, rfl⟩
  · cases h
    exact absurd hreleased (lt_irrefl _)

/-- Once it is paid, nothing more is to be refunded. -/
theorem failedProvisionRefund_paid {db db' : Db} {i : ℕ} {record : BillingRecord}
    (hrecords : db'.billingRecords = db.billingRecords ++ [record])
    (hid : record.instanceId = i) (htype : record.type = .refund)
    (hamount : record.amount = -failedProvisionRefund db i) : failedProvisionRefund db' i = 0 := by
  have hpaid : |record.amount| = failedProvisionRefund db i := by
    rw [hamount, abs_neg]
    exact abs_of_nonneg (le_max_left _ _)
  unfold failedProvisionRefund at hpaid ⊢
  dsimp only at hpaid ⊢
  generalize hcharged : Keyed.total (fun r : BillingRecord => max 0 r.amount)
    ((db.billingRecords.filter fun r => r.instanceId == i).filter fun r => r.type == .newPurchase)
      = charged at hpaid
  generalize hrefunded : Keyed.total (fun r : BillingRecord => |r.amount|)
    ((db.billingRecords.filter fun r => r.instanceId == i).filter fun r => r.type == .refund)
      = refunded at hpaid
  have hone : ([record].filter fun r => r.instanceId == i) = [record] := by simp [hid]
  have hnot : ([record].filter fun r => r.type == .newPurchase) = [] := by simp [htype]
  have hyes : ([record].filter fun r => r.type == .refund) = [record] := by simp [htype]
  simp only [hrecords, List.filter_append, hone, hnot, hyes, Keyed.total_append, hcharged,
    hrefunded, Keyed.total_nil, Keyed.total_cons, hpaid]
  rw [add_zero, add_zero, max_eq_left]
  have hle : charged - refunded ≤ max 0 (charged - refunded) := le_max_right _ _
  linarith

/-- So it stands after a settlement of its failed provision that has refunded something. -/
theorem refundedAfterFailure_of_settled {db db' : Db} {env : Env} {i : ℕ} {refundAmount : Units}
    (h : failCreatingInstanceAndRefund db env i = .ok (db', some refundAmount))
    (hpaid : 0 < refundAmount) : db'.refundedAfterFailure i := by
  rcases failCreatingInstanceAndRefund_spec h with ⟨hnone, -⟩ | ⟨row, hrow, -, hrows, -⟩
  · cases hnone
  refine ⟨{ row with
      status := .error, provisioningCleanupPending := false, version := row.version + 1 },
    by simp [hrows, Db.updateInstance, hrow], rfl, ?_⟩
  unfold failCreatingInstanceAndRefund at h
  rw [hrow] at h
  dsimp only at h
  split at h
  · cases h
  cases hmode : row.billingMode with
  | hourly =>
    rw [hmode] at h
    dsimp only at h
    split at h
    · cases h
    · rename_i hreleased
      cases h
      exact closed_of_releaseFailedHourly hreleased hpaid
  | package =>
    rw [hmode] at h
    dsimp only at h
    split at h
    · cases h
    rename_i db₂ discount hcoupon
    split at h
    · cases h
    rename_i db₃ haff
    split at h
    · cases h
      exact absurd hpaid (lt_irrefl _)
    rename_i hpos
    split at h
    · cases h
    rename_i hrefund
    cases h
    obtain ⟨hcoupons, -⟩ := releaseOfficialCouponUsageByInstance_spec hcoupon
    obtain ⟨haffs, -⟩ := reverseAffCommissionForInstance_spec haff
    obtain ⟨⟨log, record, logs, hposted⟩, -, -⟩ := payRefund_spec hrefund
    have hrecords : db'.billingRecords = db.billingRecords ++ [record] := by
      rw [hposted.posting.billingRecords, haffs.posting.billingRecords, hcoupons.billingRecords,
        List.append_nil, List.append_nil]
      rfl
    refine ⟨failedProvisionRefund_paid hrecords hposted.recordInstance hposted.recordType
      hposted.recordAmount, record, ?_, hposted.recordInstance, hposted.recordType⟩
    rw [hrecords]
    exact List.mem_append_right _ (.head _)

/-- What the report of a host is to respect. -/
structure RespectsReport (hostId : ℕ) (w w' : ReportWorld) (applied : List (Text × ℕ)) : Prop where
  hosts : ∀ i, (∀ inst, w.db.instances i = some inst → inst.hostId ≠ hostId) → SameRows w w' i
  held : ∀ i, HeldKept w w' i
  once : (applied.map Prod.fst).Nodup
  refunded : ∀ i, w.db.refundedAfterFailure i →
    ∀ inst, w'.db.instances i = some inst → inst.status ≠ .running

section Report

variable {w : ReportWorld} {e : ReportEnv} {hostId : ℕ} {names : List Text}
  {items : List ReportItem} {i : ℕ}

/-- The report says of the instance `i` that it runs. -/
def ReportsRunning (instances : List ReportedDbInstance) (items : List ReportItem) (i : ℕ) : Prop :=
  ∃ item ∈ items, ∃ seen, instanceByIncusId instances item.name = some seen ∧ seen.id = i ∧
    item.status = some .running

/-- Items with other names than one that finds `i` do not find it. -/
theorem not_reportsOn {item : ReportItem} {seen : ReportedDbInstance}
    (hfound : instanceByIncusId (w.findReported hostId names) item.name = some seen)
    (hnames : ∀ other ∈ items, other.name ≠ item.name) :
    ¬ReportsOn (w.findReported hostId names) items seen.id := by
  rintro ⟨other, hother, seen', hfound', hid⟩
  have hname := (findReported_spec hfound).1
  have hname' := (findReported_spec hfound').1
  rw [hid] at hname'
  exact hnames other hother (hname'.symm.trans hname)

/-- A refunded instance runs after the report if that says so, and only then. -/
theorem refunded_runs_iff (hnodup : (items.map ReportItem.name).Nodup)
    (hrefunded : w.db.refundedAfterFailure i) (r : AgentInstanceReportResult) :
    ∃ inst, (processItems e (w.findReported hostId names) items w r).1.db.instances i = some inst ∧
      (inst.status = .running ↔ ReportsRunning (w.findReported hostId names) items i) := by
  obtain ⟨inst, hinst, herror, hsettled⟩ := hrefunded
  by_cases hon : ReportsOn (w.findReported hostId names) items i
  · obtain ⟨item, hitem, seen, hfound, rfl⟩ := hon
    obtain ⟨hname, row, hrow, -, hstatus, hmode⟩ := findReported_spec hfound
    obtain rfl := Option.some.inj (hinst.symm.trans hrow)
    obtain ⟨pre, post, rfl⟩ := List.append_of_mem hitem
    rw [List.map_append, List.map_cons] at hnodup
    have hpre : ∀ other ∈ pre, other.name ≠ item.name := by
      intro other hother heq
      exact (List.disjoint_of_nodup_append hnodup) (List.mem_map_of_mem hother)
        (heq ▸ List.mem_cons_self)
    have hpost : ∀ other ∈ post, other.name ≠ item.name := by
      intro other hother heq
      exact (List.nodup_cons.mp hnodup.of_append_right).1 (heq ▸ List.mem_map_of_mem hother)
    rw [processItems_append, processItems, hfound]
    -- the row before its own item is that of the beginning, and after it that of the end
    obtain ⟨hbefore, -⟩ := processItems_touched e (w.findReported hostId names) pre w r
    have hsame := hbefore seen.id (not_reportsOn hfound hpre)
    have hclosed : seen.billingMode = .hourly →
        ∃ account, (processItems e (w.findReported hostId names) pre w r).1.db.hourlyAccount seen.id
          = some account ∧ account.status = .closed := by
      intro hhourly
      rw [← hmode, hhourly] at hsettled
      obtain ⟨account, haccount, hclosed⟩ := hsettled
      exact ⟨account, hsame.account.trans haccount, hclosed⟩
    obtain ⟨after, hafter, hwritten⟩ := processOneAgentInstanceReport_error e item
      (hsame.inst.trans hinst) herror (hstatus.trans herror) hclosed
    obtain ⟨hbehind, -⟩ := processItems_touched e (w.findReported hostId names) post _ _
    refine ⟨after, (hbehind seen.id (not_reportsOn hfound hpost)).inst.trans hafter, ?_⟩
    rw [hwritten]
    constructor
    · intro hrunning
      refine ⟨item, hitem, seen, hfound, rfl, ?_⟩
      cases hreported : item.status with
      | none => rw [hreported] at hrunning; exact absurd hrunning (by decide)
      | some status => rw [hreported] at hrunning; exact congrArg some hrunning
    · rintro ⟨other, hother, seen', hfound', hid, hrunning⟩
      have hsameName : other.name = item.name := by
        have hname' := (findReported_spec hfound').1
        rw [hid] at hname'
        exact hname'.symm.trans hname
      rcases List.mem_append.mp hother with hother | hother
      · exact absurd hsameName (hpre other hother)
      · rcases List.mem_cons.mp hother with rfl | hother
        · rw [hrunning, Option.getD_some]
        · exact absurd hsameName (hpost other hother)
  · obtain ⟨hsame, -⟩ := processItems_touched e (w.findReported hostId names) items w r
    refine ⟨inst, (hsame i hon).inst.trans hinst, ?_⟩
    rw [herror]
    constructor
    · exact fun h => absurd h (by decide)
    · rintro ⟨item, hitem, seen, hfound, hid, -⟩
      exact absurd ⟨item, hitem, seen, hfound, hid⟩ hon

/-- The report of a host changes instances of this host only, none that is creating,
suspended or deleted, and applies a name once, whatever the payload is.  It lets a
refunded instance be exactly if it does not name it as running. -/
theorem report_respects_iff (w : ReportWorld) (e : ReportEnv) (hostId : ℕ) (payload : JsValue) :
    RespectsReport hostId w (processAgentInstanceReport w e hostId payload).1
        (processAgentInstanceReport w e hostId payload).2.applied ↔
      ∀ i, w.db.refundedAfterFailure i →
        ¬ReportsRunning
          (w.findReported hostId ((normalizeAgentInstanceItems payload).map ReportItem.name))
          (normalizeAgentInstanceItems payload) i := by
  have hnodup := nodup_normalizeAgentInstanceItems payload
  constructor
  · intro h i hrefunded hrunning
    obtain ⟨inst, hinst, hruns⟩ := refunded_runs_iff (e := e) hnodup hrefunded _
    exact h.refunded i hrefunded inst hinst (hruns.mpr hrunning)
  · intro h
    obtain ⟨hsame, hheld⟩ := processItems_touched e
      (w.findReported hostId ((normalizeAgentInstanceItems payload).map ReportItem.name))
      (normalizeAgentInstanceItems payload) w
      { received := (normalizeAgentInstanceItems payload).length }
    refine ⟨fun i hi => hsame i ?_, hheld, ?_, fun i hrefunded inst hinst hrunning => ?_⟩
    · rintro ⟨item, -, seen, hfound, rfl⟩
      obtain ⟨-, inst, hinst, hhost, -⟩ := findReported_spec hfound
      exact hi inst hinst hhost
    · exact hnodup.sublist (processItems_applied w _)
    · obtain ⟨inst', hinst', hruns⟩ := refunded_runs_iff (e := e) hnodup hrefunded _
      obtain rfl := Option.some.inj (hinst'.symm.trans hinst)
      exact h i hrefunded (hruns.mp hrunning)

end Report

/-! ## A report on a refunded instance -/

/-- The instance 5 was charged ten and could not be created; its settlement is next. -/
def failedWorld : Db where
  users := fun id => if id ∈ [1, 2] then some {} else none
  hosts := fun id => if id = 1 then some { userId := 2 } else none
  instances := fun id =>
    if id = 5 then
      some { userId := 1, hostId := 1, status := .creating, provisioningCleanupPending := true }
    else none
  billingRecords :=
    [{ id := 1, instanceId := 5, userId := 1, type := .newPurchase, amount := 1000, months := 1
       periodStart := 0, periodEnd := freezeMs, createdAt := 0 }]
  nextId := 2

/-- The tables of a report over a database with the instance 5. -/
def reportWorld (db : Db) : ReportWorld where
  db
  instanceIds := [5]
  columns := fun _ => { incusId := text "vm-5" }
  userQuota := fun _ => none

/-- The report that `vm-5` runs. -/
def runningReport : JsValue :=
  .object [(text "items", .array
    [.object [(text "name", .string (text "vm-5")), (text "status", .string (text "Running"))]])]

/-- The settlement refunds the ten and leaves the instance in error; the agent's next report
makes it run. -/
theorem report_revives_refunded :
    ∃ db, failCreatingInstanceAndRefund failedWorld { now := 0 } 5 = .ok (db, some 1000000000) ∧
      db.refundedAfterFailure 5 ∧
      ¬RespectsReport 1 (reportWorld db)
        (processAgentInstanceReport (reportWorld db) ⟨0, 0, fun _ => ⟨⟨0, 0, 0⟩, none⟩, fun _ => false⟩
          1 runningReport).1
        (processAgentInstanceReport (reportWorld db) ⟨0, 0, fun _ => ⟨⟨0, 0, 0⟩, none⟩, fun _ => false⟩
          1 runningReport).2.applied := by
  obtain ⟨⟨db, refund⟩, h, hruns⟩ := Option.map_eq_some_iff.mp
    (show (failCreatingInstanceAndRefund failedWorld { now := 0 } 5).toOption.map
      (fun r => (r.2, ((processAgentInstanceReport (reportWorld r.1)
        ⟨0, 0, fun _ => ⟨⟨0, 0, 0⟩, none⟩, fun _ => false⟩ 1 runningReport).1.db.instances 5).map
          (·.status))) = some (some 1000000000, some .running) by decide +kernel)
  obtain ⟨hrefund, hstatus⟩ := Prod.mk.inj hruns
  subst hrefund
  have h := toOption_eq_some h
  have hrefunded := refundedAfterFailure_of_settled h (by decide)
  obtain ⟨inst, hinst, hrunning⟩ := Option.map_eq_some_iff.mp hstatus
  exact ⟨db, h, hrefunded, fun hrespects => hrespects.refunded 5 hrefunded inst hinst hrunning⟩

end Incudal
