/-
# `HostAccounts` — the counters of a host are the sum over its reservations

Between two operations every counter of a host equals the sum over the
instances that hold a reservation, as long as what is reserved and released for
an instance is what goes with its row.  Two callers do not see to that: a clone
reserves the ports of its mappings and holds those of its `portLimit`, and an
instance whose creation has failed has been released when it is deleted and
released again.

`booksItsOwn` is the condition on an operation that it is neither; in the runs
that meet it the accounts are right (`host_accounts`).
-/
import Incudal.HostReservations

namespace Incudal

/-! ## What is to hold -/

/-- The instance is on the host and holds a reservation. -/
def HostWorld.holds (w : HostWorld) (id : ℕ) : Bool := (w.find id).any (·.status.allocated)

/-- The counters are the sum over the reservations that are held, and none is
negative; every reservation, of those that were held at the start or were made
since, has been released once unless it is still held. -/
structure HostAccounts (hostId : ℕ) (w₀ w : HostWorld) : Prop where
  counters : ∃ host, w.hosts hostId = some host ∧
    host.used = Keyed.total HostedInstance.held w.instances ∧ 0 ≤ host.used
  released : ∀ id, w.releases.count id + (w.holds id).toNat
    = w.reservations.count id + (w₀.holds id).toNat

/-- What is reserved or released is what goes with the row, and an instance that
is deleted or leaves holds its reservation. -/
def booksItsOwn (w : HostWorld) : HostEvent → Bool
  | .clone sourceId _ newPortMappings completes =>
      !completes || (w.find sourceId).all fun source => newPortMappings == source.reservedPorts
  | .rollback id caller =>
      (w.find id).all fun inst =>
        inst.status.allocated && caller.portCount inst == inst.reservedPorts
  | _ => true

/-! ## Reservations and rows -/

/-- The resources that a row holds; none if there is no row. -/
def heldBy (row : Option HostedInstance) : Resources := (row.map HostedInstance.held).getD 0

def allocatedRow (row : Option HostedInstance) : Bool := row.any (·.status.allocated)

/-- How the histories grow as an instance comes to hold a reservation or no longer does. -/
inductive LedgerMove (id : ℕ) : Bool → Bool → List ℕ → List ℕ → Prop
  | keep (holds : Bool) : LedgerMove id holds holds [] []
  | take : LedgerMove id false true [id] []
  | give : LedgerMove id true false [] [id]
  | pass (holds : Bool) : LedgerMove id holds holds [id] [id]

/-- One row is rewritten, added or removed. -/
structure RowMove (id : ℕ) (row row' : Option HostedInstance) (w w' : HostWorld) : Prop where
  nodup : (w'.instances.map HostedInstance.id).Nodup
  before : w.find id = row
  after : w'.find id = row'
  others : ∀ i, i ≠ id → w'.find i = w.find i
  total : Keyed.total HostedInstance.held w'.instances
    = Keyed.total HostedInstance.held w.instances - heldBy row + heldBy row'

/-- The counters of the host go up by `delta`, and the histories grow. -/
structure CounterMove (hostId : ℕ) (delta : Resources) (reserved released : List ℕ)
    (w w' : HostWorld) : Prop where
  hosts : ∀ host, w.hosts hostId = some host →
    w'.hosts hostId = some (host.withUsed (host.used + delta))
  reservations : w'.reservations = w.reservations ++ reserved
  releases : w'.releases = w.releases ++ released

section Moves

variable {hostId id : ℕ} {row row' : Option HostedInstance} {w₀ w w' w'' : HostWorld}
  {reserved released reserved' released' : List ℕ} {inst : HostedInstance}
  {amounts delta delta' : Resources} {f : HostedInstance → HostedInstance}

theorem LedgerMove.balance {holds holds' : Bool} (h : LedgerMove id holds holds' reserved released) :
    released.count id + holds'.toNat = reserved.count id + holds.toNat := by
  cases h <;> simp [Nat.add_comm]

theorem LedgerMove.others {holds holds' : Bool} (h : LedgerMove id holds holds' reserved released)
    {i : ℕ} (hi : i ≠ id) : released.count i = 0 ∧ reserved.count i = 0 := by
  cases h <;> simp [List.count_eq_zero, hi]

theorem CounterMove.trans (h : CounterMove hostId delta reserved released w w')
    (h' : CounterMove hostId delta' reserved' released' w' w'') :
    CounterMove hostId (delta + delta') (reserved ++ reserved') (released ++ released') w w'' where
  hosts := by
    intro host hhost
    have hhost' := h.hosts host hhost
    rw [h'.hosts _ hhost']
    simp [HostCapacity.withUsed, add_assoc]
  reservations := by rw [h'.reservations, h.reservations, List.append_assoc]
  releases := by rw [h'.releases, h.releases, List.append_assoc]

theorem RowMove.rewrite (hn : (w.instances.map HostedInstance.id).Nodup)
    (hfind : w.find id = some inst) (hf : ∀ i, (f i).id = i.id) :
    RowMove id (some inst) (some (f inst)) w (w.rewrite id f) := by
  obtain ⟨hmem, rfl⟩ := Keyed.mem_of_lookup hfind
  refine ⟨?_, hfind, Keyed.lookup_modify_self hf hfind,
    fun i hi => Keyed.lookup_modify_of_ne hf hi, Keyed.total_modify hn hmem⟩
  simp only [HostWorld.rewrite, Keyed.map_key_modify hf]
  exact hn

theorem RowMove.of_instances (h : RowMove id row row' w w')
    (hinstances : w''.instances = w'.instances) : RowMove id row row' w w'' where
  nodup := hinstances ▸ h.nodup
  before := h.before
  after := by rw [HostWorld.find, hinstances]; exact h.after
  others := fun i hi => by rw [HostWorld.find, hinstances]; exact h.others i hi
  total := hinstances ▸ h.total

/-- Accounts, as they are kept: the counters are the sum, ids are unique. -/
structure KeptAccounts (hostId : ℕ) (w₀ w : HostWorld) : Prop where
  nodup : (w.instances.map HostedInstance.id).Nodup
  counters : ∃ host, w.hosts hostId = some host ∧
    host.used = Keyed.total HostedInstance.held w.instances
  released : ∀ id, w.releases.count id + (w.holds id).toNat
    = w.reservations.count id + (w₀.holds id).toNat

/-- A row and the counters move together. -/
theorem KeptAccounts.move (h : KeptAccounts hostId w₀ w) (hrow : RowMove id row row' w w')
    (hcounters : CounterMove hostId (heldBy row' - heldBy row) reserved released w w')
    (hledger : LedgerMove id (allocatedRow row) (allocatedRow row') reserved released) :
    KeptAccounts hostId w₀ w' := by
  refine ⟨hrow.nodup, ?_, fun i => ?_⟩
  · obtain ⟨host, hhost, hused⟩ := h.counters
    refine ⟨_, hcounters.hosts host hhost, ?_⟩
    simp only [HostCapacity.withUsed, hused, hrow.total]
    abel
  · have hi := h.released i
    rw [hcounters.releases, hcounters.reservations, List.count_append, List.count_append]
    by_cases hid : i = id
    · subst hid
      have hbalance := hledger.balance
      have hbefore : w.holds i = allocatedRow row := by rw [HostWorld.holds, hrow.before]; rfl
      have hafter : w'.holds i = allocatedRow row' := by rw [HostWorld.holds, hrow.after]; rfl
      rw [hbefore] at hi
      rw [hafter]
      omega
    · have hsame : w'.holds i = w.holds i := by
        rw [HostWorld.holds, hrow.others i hid]
        rfl
      obtain ⟨hreleased, hreserved⟩ := hledger.others hid
      rw [hsame, hreleased, hreserved]
      omega

/-! ## Operations -/

theorem held_le_total (hmem : inst ∈ w.instances) :
    inst.held ≤ Keyed.total HostedInstance.held w.instances :=
  Keyed.le_total (fun i _ => i.held_nonneg) hmem

theorem total_held_nonneg : 0 ≤ Keyed.total HostedInstance.held w.instances :=
  Keyed.total_nonneg fun i _ => i.held_nonneg

theorem reserve_spec (h : w.reserve hostId id amounts = some w') (hports : 0 ≤ amounts.portCount) :
    CounterMove hostId amounts [id] [] w w' ∧ w'.instances = w.instances := by
  simp only [HostWorld.reserve] at h
  split at h <;> cases h
  rename_i hosts hreserved
  obtain ⟨host, hhost, rfl⟩ := reserveHostResources_eq hreserved hports
  refine ⟨⟨fun host' hhost' => ?_, rfl, (List.append_nil _).symm⟩, rfl⟩
  obtain rfl := Option.some.inj (hhost.symm.trans hhost')
  exact Function.update_self ..

/-- A release of what the counters cover succeeds. -/
theorem HostWorld.release_spec (w : HostWorld) (id : ℕ) {host : HostCapacity}
    (hhost : w.hosts hostId = some host) (h0 : 0 ≤ amounts)
    (hle : amounts ≤ host.used) :
    ∃ w', w.release hostId id amounts = some w' ∧
      CounterMove hostId (-amounts) [] [id] w w' ∧ w'.instances = w.instances := by
  have hok := decrementHostResourceCounters_ok hhost h0 hle
  refine ⟨_, by rw [HostWorld.release, hok], ⟨fun host' hhost' => ?_, ?_, ?_⟩, ?_⟩
  · obtain rfl := Option.some.inj (hhost.symm.trans hhost')
    simp [sub_eq_add_neg]
  · exact (List.append_nil _).symm
  · rfl
  · rfl

theorem HostWorld.increment_spec (w : HostWorld) (hostId : ℕ) (delta : Resources) :
    CounterMove hostId delta [] [] w (w.increment hostId delta) where
  hosts := by
    intro host hhost
    simp [HostWorld.increment, hhost]
  reservations := (List.append_nil _).symm
  releases := (List.append_nil _).symm

theorem KeptAccounts.used_le (h : KeptAccounts hostId w₀ w) (hfind : w.find id = some inst)
    (hallocated : inst.status.allocated = true) :
    ∃ host, w.hosts hostId = some host ∧ inst.resources ≤ host.used := by
  obtain ⟨host, hhost, hused⟩ := h.counters
  refine ⟨host, hhost, ?_⟩
  rw [hused, ← HostedInstance.held_of_allocated hallocated]
  exact held_le_total (Keyed.mem_of_lookup hfind).1

/-- The instance is released: its row no longer holds, and the counters give back
what went with it. -/
theorem KeptAccounts.release (h : KeptAccounts hostId w₀ w)
    (hallocated : inst.status.allocated = true) (hrow : RowMove id (some inst) row' w w')
    (hrow' : allocatedRow row' = false) (hnone : heldBy row' = 0)
    (hcounters : CounterMove hostId (-inst.resources) [] [id] w w') :
    KeptAccounts hostId w₀ w' := by
  have hbefore : heldBy (some inst) = inst.resources := HostedInstance.held_of_allocated hallocated
  have hdelta : heldBy row' - heldBy (some inst) = -inst.resources := by
    rw [hnone, hbefore, zero_sub]
  have hledger : LedgerMove id (allocatedRow (some inst)) (allocatedRow row') [] [id] := by
    rw [hrow', show allocatedRow (some inst) = true from hallocated]
    exact .give
  exact h.move hrow (hdelta ▸ hcounters) hledger

theorem RowMove.added {new : HostedInstance} (hn : (w.instances.map HostedInstance.id).Nodup)
    (hfresh : w.find new.id = none) (hinstances : w'.instances = w.instances ++ [new]) :
    RowMove new.id none (some new) w w' := by
  have hids := Keyed.lookup_eq_none_iff.mp hfresh
  have hlookup : ∀ i, w'.find i = if new.id = i then some new else w.find i := by
    intro i
    rw [HostWorld.find, hinstances]
    exact Keyed.lookup_append_singleton hids
  refine ⟨?_, hfresh, by simp [hlookup], fun i hi => by simp [hlookup, Ne.symm hi], ?_⟩
  · rw [hinstances]
    exact Keyed.nodup_append_singleton hn hids
  · rw [hinstances]
    simp [heldBy]

theorem RowMove.removed (hn : (w.instances.map HostedInstance.id).Nodup)
    (hfind : w.find id = some inst)
    (hinstances : w'.instances = Keyed.erase HostedInstance.id id w.instances) :
    RowMove id (some inst) none w w' := by
  obtain ⟨hmem, rfl⟩ := Keyed.mem_of_lookup hfind
  have hlookup : ∀ i, w'.find i = (w.find i).filter fun r => decide (r.id ≠ inst.id) := by
    intro i
    rw [HostWorld.find, hinstances]
    exact Keyed.lookup_filter hn _
  refine ⟨hinstances ▸ Keyed.nodup_erase hn, hfind, by simp [hlookup, hfind], fun i hi => ?_, ?_⟩
  · rw [hlookup]
    cases hrow : w.find i with
    | none => rfl
    | some r => simp [Option.filter, (Keyed.mem_of_lookup hrow).2, hi]
  · rw [hinstances, Keyed.total_erase hn hmem]
    simp [heldBy]

theorem RowMove.same (hn : (w.instances.map HostedInstance.id).Nodup)
    (hfind : w.find id = row) (hinstances : w'.instances = w.instances) :
    RowMove id row row w w' where
  nodup := hinstances ▸ hn
  before := hfind
  after := by rw [HostWorld.find, hinstances]; exact hfind
  others := fun i _ => by rw [HostWorld.find, hinstances]; rfl
  total := by rw [hinstances]; abel

theorem keptAccounts_clone {sourceId newId newPortMappings : ℕ} {completes : Bool}
    (h : KeptAccounts hostId w₀ w)
    (hok : booksItsOwn w (.clone sourceId newId newPortMappings completes) = true)
    (hs : w.clone hostId sourceId newId newPortMappings completes = some w') :
    KeptAccounts hostId w₀ w' := by
  simp only [HostWorld.clone] at hs
  split at hs
  swap
  · cases hs
  rename_i source hsource hfresh
  split at hs
  · cases hs
    exact h
  rename_i w₁ hreserve
  obtain ⟨hcounters, hinstances⟩ := reserve_spec hreserve (by simp)
  split at hs <;> cases hs
  · -- the clone holds what has been reserved for it
    rename_i hcompletes
    simp only [booksItsOwn, hcompletes, Bool.not_true, Bool.false_or, hsource, Option.all_some,
      beq_iff_eq] at hok
    let new : HostedInstance := { source with
      id := newId, status := .stopped, suspendReason := none, provisioningCleanupPending := false }
    have hrow : RowMove new.id none (some new) w { w₁ with instances := w.instances ++ [new] } :=
      .added h.nodup hfresh rfl
    refine h.move hrow ?_ .take
    have hdelta : heldBy (some { source with
        id := newId, status := .stopped, suspendReason := none
        provisioningCleanupPending := false }) - heldBy none
          = ⟨source.cpu, source.memory, source.disk, newPortMappings⟩ := by
      rw [hok]
      exact sub_zero _
    rw [hdelta]
    exact ⟨hcounters.hosts, hcounters.reservations, hcounters.releases⟩
  · obtain ⟨host, hhost, hused⟩ := h.counters
    have hhost₁ := hcounters.hosts host hhost
    have hle : (⟨source.cpu, source.memory, source.disk, newPortMappings⟩ : Resources)
        ≤ (host.withUsed (host.used + ⟨source.cpu, source.memory, source.disk,
          newPortMappings⟩)).used := by
      rw [HostCapacity.withUsed, hused]
      exact le_add_of_nonneg_left total_held_nonneg
    obtain ⟨w₂, hrelease, hcounters₂, hinstances₂⟩ :=
      w₁.release_spec newId hhost₁ (by simp [Resources.le_def]) hle
    rw [hrelease, Option.getD_some]
    refine h.move (.same h.nodup hfresh (hinstances₂.trans hinstances)) ?_ (.pass false)
    have hcancel := hcounters.trans hcounters₂
    rw [add_neg_cancel] at hcancel
    rw [sub_self]
    exact hcancel

theorem keptAccounts_retryProvision {userId : ℕ} (h : KeptAccounts hostId w₀ w)
    (hs : w.retryProvision hostId id userId = some w') : KeptAccounts hostId w₀ w' := by
  simp only [HostWorld.retryProvision] at hs
  split at hs
  · cases hs
  rename_i inst hfind
  split at hs <;> cases hs
  rename_i herror
  cases hreserve : w.reserve hostId id inst.resources with
  | none => exact h
  | some w₁ =>
      obtain ⟨hcounters, hinstances⟩ :=
        reserve_spec hreserve (by simp [HostedInstance.resources])
      have hrow := RowMove.rewrite (f := (·.withStatus .creating)) h.nodup hfind fun _ => rfl
      have hbefore : heldBy (some inst) = 0 :=
        HostedInstance.held_of_not_allocated (by rw [herror.2.1]; rfl)
      have hledger : LedgerMove id (allocatedRow (some inst))
          (allocatedRow (some (inst.withStatus .creating))) [id] [] := by
        rw [show allocatedRow (some inst) = false by simp [allocatedRow, herror.2.1,
          InstanceStatus.allocated]]
        exact .take
      refine h.move (hrow.of_instances ?_) ?_ hledger
      · simp [HostWorld.rewrite, hinstances]
      · rw [hbefore, sub_zero]
        exact ⟨hcounters.hosts, hcounters.reservations, hcounters.releases⟩

/-- What an instance holds can be released: the counters cover it. -/
theorem KeptAccounts.release_held (h : KeptAccounts hostId w₀ w) (hfind : w.find id = some inst)
    (hallocated : inst.status.allocated = true) :
    ∃ w', w.release hostId id inst.resources = some w' ∧
      CounterMove hostId (-inst.resources) [] [id] w w' ∧ w'.instances = w.instances := by
  obtain ⟨host, hhost, hle⟩ := h.used_le hfind hallocated
  exact w.release_spec id hhost inst.resources_nonneg hle

/-- A release that takes the row out of the statuses that hold a reservation. -/
theorem keptAccounts_fail (h : KeptAccounts hostId w₀ w) (hfind : w.find id = some inst)
    (hcreating : inst.status = .creating) (hid : ∀ i, (f i).id = i.id)
    (herror : (f inst).status = .error) :
    KeptAccounts hostId w₀ (((w.release hostId id inst.resources).map (·.rewrite id f)).getD w) := by
  have hallocated : inst.status.allocated = true := by rw [hcreating]; rfl
  obtain ⟨w₁, hrelease, hcounters, hinstances⟩ := h.release_held hfind hallocated
  have hrow := RowMove.rewrite (f := f) h.nodup hfind hid
  have hafter : (f inst).status.allocated = false := by rw [herror]; rfl
  rw [hrelease, Option.map_some, Option.getD_some]
  refine h.release hallocated (hrow.of_instances ?_) hafter
    (HostedInstance.held_of_not_allocated hafter)
    ⟨hcounters.hosts, hcounters.reservations, hcounters.releases⟩
  simp [HostWorld.rewrite, hinstances]

theorem keptAccounts_failRetry (h : KeptAccounts hostId w₀ w)
    (hs : w.failRetry hostId id = some w') : KeptAccounts hostId w₀ w' := by
  simp only [HostWorld.failRetry] at hs
  split at hs
  · cases hs
  rename_i inst hfind
  split at hs <;> cases hs
  rename_i hcreating
  exact keptAccounts_fail h hfind hcreating (fun _ => rfl) rfl

theorem keptAccounts_settleFailedProvision (h : KeptAccounts hostId w₀ w)
    (hs : w.settleFailedProvision hostId id = some w') : KeptAccounts hostId w₀ w' := by
  simp only [HostWorld.settleFailedProvision] at hs
  split at hs
  · cases hs
  rename_i inst hfind
  split at hs <;> cases hs
  rename_i hcreating
  exact keptAccounts_fail h hfind hcreating.1
    (f := fun i => { i with status := .error, provisioningCleanupPending := false })
    (fun _ => rfl) rfl

theorem keptAccounts_deleteExpired {deletedOnIncus : Bool} (h : KeptAccounts hostId w₀ w)
    (hs : w.deleteExpired hostId id deletedOnIncus = some w') : KeptAccounts hostId w₀ w' := by
  simp only [HostWorld.deleteExpired] at hs
  split at hs
  · cases hs
  rename_i inst hfind
  split at hs
  swap
  · cases hs
  rename_i hexpired
  split at hs <;> cases hs
  swap
  · exact h
  have hallocated : inst.status.allocated = true := by rw [hexpired.1]; rfl
  obtain ⟨w₁, hrelease, hcounters, hinstances⟩ := h.release_held hfind hallocated
  rw [hrelease, Option.map_some, Option.getD_some]
  refine h.release hallocated (.removed h.nodup hfind ?_) rfl rfl
    ⟨hcounters.hosts, hcounters.reservations, hcounters.releases⟩
  rw [hinstances]

theorem keptAccounts_rollback {caller : RollbackCaller} (h : KeptAccounts hostId w₀ w)
    (hok : booksItsOwn w (.rollback id caller) = true)
    (hs : w.rollback hostId id caller = some w') : KeptAccounts hostId w₀ w' := by
  simp only [HostWorld.rollback] at hs
  split at hs
  · cases hs
  rename_i inst hfind
  split at hs <;> cases hs
  simp only [booksItsOwn, hfind, Option.all_some, Bool.and_eq_true, beq_iff_eq] at hok
  have hown : (⟨inst.cpu, inst.memory, inst.disk, caller.portCount inst⟩ : Resources)
      = inst.resources := by
    rw [hok.2]
    rfl
  obtain ⟨host, hhost, hle⟩ := h.used_le hfind hok.1
  have hhost₁ : (w.rewrite id (·.withStatus .deleted)).hosts hostId = some host := hhost
  obtain ⟨w₁, hrelease, hcounters, hinstances⟩ :=
    HostWorld.release_spec _ id hhost₁ inst.resources_nonneg hle
  have hrow := RowMove.rewrite (f := (·.withStatus .deleted)) h.nodup hfind fun _ => rfl
  rw [hown, hrelease, Option.getD_some]
  exact h.release hok.1 (hrow.of_instances hinstances) rfl rfl
    ⟨hcounters.hosts, hcounters.reservations, hcounters.releases⟩

theorem keptAccounts_changePlan {plan : PlanResources} {applied charged : Bool}
    (h : KeptAccounts hostId w₀ w)
    (hs : w.changePlan hostId id plan applied charged = some w') : KeptAccounts hostId w₀ w' := by
  simp only [HostWorld.changePlan] at hs
  split at hs
  swap
  · cases hs
  rename_i inst host hfind hhost
  split at hs
  swap
  · cases hs
    exact h
  rename_i hchecked
  have hcounters := w.increment_spec hostId (inst.planDelta plan)
  split at hs <;> cases hs
  · have hallocated : inst.status.allocated = true := by
      rcases hchecked.1 with hstatus | hstatus <;> rw [hstatus] <;> rfl
    have hrow := RowMove.rewrite (f := (·.changedPlan plan)) h.nodup hfind fun _ => rfl
    have hbefore : heldBy (some inst) = inst.resources :=
      HostedInstance.held_of_allocated hallocated
    have hafter : heldBy (some (inst.changedPlan plan)) = (inst.changedPlan plan).resources :=
      HostedInstance.held_of_allocated hallocated
    refine h.move (hrow.of_instances rfl) ?_ (.keep inst.status.allocated)
    rw [hbefore, hafter, HostedInstance.resources_changedPlan]
    exact ⟨hcounters.hosts, hcounters.reservations, hcounters.releases⟩
  · -- the counters are put back
    have hback := hcounters.trans
      ((w.increment hostId (inst.planDelta plan)).increment_spec hostId (-inst.planDelta plan))
    rw [add_neg_cancel] at hback
    refine h.move (.same h.nodup hfind rfl) ?_ (.keep inst.status.allocated)
    rw [sub_self]
    exact hback

theorem keptAccounts_setStatus {status : InstanceStatus} {suspendReason : Option String}
    {pending : Bool} (h : KeptAccounts hostId w₀ w)
    (hs : w.setStatus id status suspendReason pending = some w') : KeptAccounts hostId w₀ w' := by
  simp only [HostWorld.setStatus] at hs
  split at hs
  · cases hs
  rename_i inst hfind
  split at hs <;> cases hs
  rename_i hallowed
  have hbefore : inst.status.allocated = true := by
    rcases hallowed with ⟨hcreating, -⟩ | ⟨hallocated, -⟩
    · rw [hcreating]; rfl
    · exact hallocated
  have hafter : status.allocated = true := by
    rcases hallowed with ⟨-, rfl | rfl | rfl⟩ | ⟨-, -, hallocated, -⟩
    · rfl
    · rfl
    · rfl
    · exact hallocated
  have hrow := RowMove.rewrite (f := fun i =>
    { i with status, suspendReason, provisioningCleanupPending := pending }) h.nodup hfind
    fun _ => rfl
  have hsame : heldBy (some { inst with
      status, suspendReason, provisioningCleanupPending := pending }) = heldBy (some inst) :=
    (HostedInstance.held_of_allocated hafter).trans (HostedInstance.held_of_allocated hbefore).symm
  have hledger : LedgerMove id (allocatedRow (some inst)) (allocatedRow (some { inst with
      status, suspendReason, provisioningCleanupPending := pending })) [] [] := by
    rw [show allocatedRow (some inst) = true from hbefore,
      show allocatedRow (some { inst with
        status, suspendReason, provisioningCleanupPending := pending }) = true from hafter]
    exact .keep true
  refine h.move hrow ?_ hledger
  rw [hsame, sub_self]
  exact ⟨fun host hhost => by simp [HostWorld.rewrite, hhost, HostCapacity.withUsed],
    (List.append_nil _).symm, (List.append_nil _).symm⟩

/-! ## Every run -/

theorem keptAccounts_hostStep {e : HostEvent} (h : KeptAccounts hostId w₀ w)
    (hok : booksItsOwn w e = true) (hs : hostStep hostId w e = some w') :
    KeptAccounts hostId w₀ w' := by
  cases e with
  | clone sourceId newId newPortMappings completes => exact keptAccounts_clone h hok hs
  | retryProvision id userId => exact keptAccounts_retryProvision h hs
  | failRetry id => exact keptAccounts_failRetry h hs
  | settleFailedProvision id => exact keptAccounts_settleFailedProvision h hs
  | changePlan id plan applied charged => exact keptAccounts_changePlan h hs
  | deleteExpired id deletedOnIncus => exact keptAccounts_deleteExpired h hs
  | rollback id caller => exact keptAccounts_rollback h hok hs
  | setStatus id status suspendReason pending => exact keptAccounts_setStatus h hs

/-- A host whose counters are the sum over its instances. -/
structure HostWorld.Start (hostId : ℕ) (w : HostWorld) : Prop where
  nodup : (w.instances.map HostedInstance.id).Nodup
  counters : ∃ host, w.hosts hostId = some host ∧
    host.used = Keyed.total HostedInstance.held w.instances
  histories : w.reservations = [] ∧ w.releases = []

theorem HostWorld.Start.kept (h : w.Start hostId) : KeptAccounts hostId w w :=
  ⟨h.nodup, h.counters, fun id => by rw [h.histories.1, h.histories.2]⟩

theorem KeptAccounts.accounts (h : KeptAccounts hostId w₀ w) : HostAccounts hostId w₀ w := by
  obtain ⟨host, hhost, hused⟩ := h.counters
  exact ⟨⟨host, hhost, hused, hused ▸ total_held_nonneg⟩, h.released⟩

/-- In every sequence of operations that book what goes with their instances,
the counters of the host are the sum over the reservations that are held, and
every reservation is released once. -/
theorem host_accounts (hstart : w₀.Start hostId)
    (hrun : Machine.Reach (hostStep hostId) (booksItsOwn · ·) w₀ w) : HostAccounts hostId w₀ w :=
  (hrun.invariant hstart.kept fun h hok hs => keptAccounts_hostStep h hok hs).accounts

/-! ## Three runs -/

/-- An instance that may have 20 port mappings, and one whose creation is cleaned up. -/
def sampleInstances : List HostedInstance :=
  [{ id := 1, userId := 7, status := .running, cpu := 400, memory := 4096, disk := 40960
     portLimit := some 20 },
   { id := 2, userId := 7, status := .creating, provisioningCleanupPending := true, cpu := 200
     memory := 2048, disk := 20480, portLimit := some 10 }]

def sampleHost : HostWorld where
  hosts := fun
    | 10 => some
        { cpuAllowanceMax := some 1600, memoryMax := some 65536, storageSize := some 500
          natPortStart := some 20000, natPortEnd := some 29999
          used := { cpu := 600, memory := 6144, disk := 61440, portCount := 30 } }
    | _ => none
  instances := sampleInstances

theorem sampleHost_start : sampleHost.Start 10 :=
  ⟨by decide, ⟨_, rfl, by decide⟩, rfl, rfl⟩

/-- A failed creation, its retry, a change of plan, a clone with as many
mappings as it may have, and deletions. -/
theorem host_accounts_sample :
    ∃ w, Machine.Reach (hostStep 10) (booksItsOwn · ·) sampleHost w ∧
      w.releases = [2, 2, 1] ∧ HostAccounts 10 sampleHost w := by
  have hexec : (Machine.exec (Machine.guarded (hostStep 10) booksItsOwn) sampleHost
      [.settleFailedProvision 2, .retryProvision 2 7, .setStatus 2 .running none false,
        .changePlan 1 ⟨500, 8192, 81920, 30⟩ true true, .clone 1 3 30 true,
        .rollback 2 .deletion, .setStatus 1 .suspended (some "expired") false,
        .deleteExpired 1 true]).map (·.releases) = some [2, 2, 1] := by decide +kernel
  obtain ⟨w, hw, hreleases⟩ := Option.map_eq_some_iff.mp hexec
  have hrun := Machine.reach_of_exec_guarded hw
  exact ⟨w, hrun, hreleases, host_accounts sampleHost_start hrun⟩

/-- The ports that the host counts are not those of its instances. -/
theorem not_hostAccounts_of_ports {ports ports' : ℤ}
    (hused : (w.hosts hostId).map (·.used.portCount) = some ports)
    (htotal : (Keyed.total HostedInstance.held w.instances).portCount = ports')
    (hne : ports' ≠ ports) : ¬ HostAccounts hostId w₀ w := by
  intro h
  obtain ⟨host, hhost, hsum, -⟩ := h.counters
  rw [hhost, Option.map_some, Option.some.injEq, hsum, htotal] at hused
  exact hne hused

/-- A clone reserves its 3 mappings and is released with the 20 of its
`portLimit`: 17 ports of the others are given away. -/
theorem clone_releases_ports_of_others :
    ∃ w, Machine.Reach (hostStep 10) Machine.free sampleHost w ∧
      (w.hosts 10).map (·.used.portCount) = some 13 ∧ ¬ HostAccounts 10 sampleHost w := by
  have hexec : (Machine.exec (hostStep 10) sampleHost
      [.clone 1 3 3 true, .rollback 3 .deletion]).map
        (fun w => ((w.hosts 10).map (·.used.portCount),
          (Keyed.total HostedInstance.held w.instances).portCount)) = some (some 13, 30) := by
    decide +kernel
  obtain ⟨w, hw, hvalues⟩ := Option.map_eq_some_iff.mp hexec
  obtain ⟨hused, htotal⟩ := Prod.mk.inj hvalues
  exact ⟨w, Machine.reach_of_exec hw, hused, not_hostAccounts_of_ports hused htotal (by decide)⟩

/-- An instance whose creation has failed is released again as it is deleted. -/
theorem failed_instance_released_twice :
    ∃ w, Machine.Reach (hostStep 10) Machine.free sampleHost w ∧ w.releases = [2, 2] ∧
      ¬ HostAccounts 10 sampleHost w := by
  have hexec : (Machine.exec (hostStep 10) sampleHost
      [.settleFailedProvision 2, .rollback 2 .deletion]).map
        (fun w => (w.releases, (w.hosts 10).map (·.used.portCount),
          (Keyed.total HostedInstance.held w.instances).portCount))
      = some ([2, 2], some 10, 20) := by decide +kernel
  obtain ⟨w, hw, hvalues⟩ := Option.map_eq_some_iff.mp hexec
  simp only [Prod.mk.injEq] at hvalues
  obtain ⟨hreleases, hused, htotal⟩ := hvalues
  exact ⟨w, Machine.reach_of_exec hw, hreleases,
    not_hostAccounts_of_ports hused htotal (by decide)⟩

end Moves

end Incudal
