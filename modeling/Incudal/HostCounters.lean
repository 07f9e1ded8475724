/-
# `HostCounters` — what interleaved operations leave in the counters

The counters of a host are the sum over the rows and what the operations in
progress have outstanding.  Every statement keeps that, except for those that
write a counter without having read it: a purchase and the end of a deletion
overwrite the counters with sums over the rows, so that a reservation which the
rows do not show is lost, and a plan change or a delivery may write a row that
is no longer the one it has read.

`keepsReservations` is the condition on a statement that it does none of this.
In the runs that meet it no reservation is lost and no release refused
(`host_counters`).
-/
import Incudal.HostOperations
import Mathlib.Tactic.Linarith

namespace Incudal

/-! ## What is taken and what is given back -/

namespace Resources

/-- The part of a change that lowers the counters. -/
def lowered (r : Resources) : Resources :=
  ⟨min r.cpu 0, min r.memory 0, min r.disk 0, min r.portCount 0⟩

/-- The part of a change that raises the counters. -/
def raised (r : Resources) : Resources :=
  ⟨max r.cpu 0, max r.memory 0, max r.disk 0, max r.portCount 0⟩

/-- CPU, memory and disk are not concerned. -/
def onlyPorts (r : Resources) : Bool := r.cpu == 0 && r.memory == 0 && r.disk == 0

variable {r s : Resources}

@[simp] theorem lowered_zero : lowered 0 = 0 := rfl

@[simp] theorem raised_zero : raised 0 = 0 := rfl

theorem lowered_add_raised (r : Resources) : r.lowered + r.raised = r := by
  ext <;> simp only [lowered, raised, cpu_add, memory_add, disk_add, portCount_add] <;> omega

theorem raised_nonneg (r : Resources) : 0 ≤ r.raised := by
  simp [le_def, raised]

theorem lowered_nonpos (r : Resources) : r.lowered ≤ 0 := by
  simp [le_def, lowered]

theorem lowered_of_nonneg (h : 0 ≤ r) : r.lowered = 0 := by
  simp only [le_def, cpu_zero, memory_zero, disk_zero, portCount_zero] at h
  ext <;> simp [lowered, h]

theorem raised_of_nonneg (h : 0 ≤ r) : r.raised = r := by
  simp only [le_def, cpu_zero, memory_zero, disk_zero, portCount_zero] at h
  ext <;> simp [raised, h]

theorem le_raised (r : Resources) : r ≤ r.raised := by
  simp [le_def, raised]

theorem lowered_le (r : Resources) : r.lowered ≤ r := by
  simp [le_def, lowered]

end Resources

namespace HostedSlot

variable (s : HostedSlot)

/-- The share of the instance in the counters. -/
def reserved : Resources := s.row.held + Keyed.total Operation.outstanding s.operations

/-- The share, were only those operations to complete that give something back. -/
def floor : Resources := s.row.held + Keyed.total (·.outstanding.lowered) s.operations

/-- The share, were only those operations to complete that ask for more. -/
def ceiling : Resources := s.row.held + Keyed.total (·.outstanding.raised) s.operations

end HostedSlot

/-! ## The condition -/

/-- The columns that resources are computed from are those that were read. -/
def HostedInstance.sameSpecs (i j : HostedInstance) : Bool :=
  i.cpu == j.cpu && i.memory == j.memory && i.disk == j.disk &&
    i.networkMode == j.networkMode && i.portLimit == j.portLimit

def RedeemCodeType.asRead (codeType : RedeemCodeType) (read row : HostedInstance) : Bool :=
  match codeType with
  | .cpu => read.cpu == row.cpu
  | .memory => read.memory == row.memory
  | .disk => read.disk == row.disk

/-- Every operation but one is such that `p` holds of what it has outstanding. -/
def SharedHost.othersAll (w : SharedHost) (id opId : ℕ) (p : Resources → Bool) : Bool :=
  w.slots.all fun s => s.operations.all fun op =>
    (s.id == id && op.id == opId) || p op.outstanding

/-- A plan change asks for CPU or memory while nobody is about to give some back,
and what it gives back is covered by the row, whatever becomes of the others. -/
def SharedHost.admits (w : SharedHost) (s : HostedSlot) (delta : Resources) : Bool :=
  (decide (delta.cpu ≤ 0) || w.operations.all fun op => decide (0 ≤ op.outstanding.cpu)) &&
  (decide (delta.memory ≤ 0) || w.operations.all fun op => decide (0 ≤ op.outstanding.memory)) &&
  decide (0 ≤ s.floor + delta.lowered)

/-- The statement of an operation that comes next loses no reservation. -/
def Operation.keepsReservations (w : SharedHost) (s : HostedSlot) (ok : Bool) (op : Operation) :
    Bool :=
  match op.work with
  | .changePlan plan (.checked used) =>
      w.host.used != used || w.admits s (op.read.planDelta plan)
  | .changePlan _ .appliedToIncus =>
      !ok || s.version != op.version || (s.row.status.allocated && op.read.sameSpecs s.row)
  | .redeem codeType _ .remoteApplied =>
      !ok || (s.row.status.allocated && codeType.asRead op.read s.row)
  | .redeem codeType _ .unwritten =>
      ok && (codeType != .disk || (s.row.status.allocated && codeType.asRead op.read s.row))
  | .destroy .begun =>
      !ok || s.row.status != op.read.status ||
        (decide (op.read.resources ≤ s.row.held) &&
          s.operations.all fun op => decide (0 ≤ op.outstanding))
  | .destroy (.counted _ sums _) =>
      (sums - w.allocated).onlyPorts && w.othersAll s.id op.id Resources.onlyPorts
  | .destroy (.overwritten _ actualPortsUsed) =>
      actualPortsUsed == w.allocated.portCount &&
        w.othersAll s.id op.id fun outstanding => outstanding.portCount == 0
  | _ => true

/-- The step loses no reservation: a purchase finds none outstanding. -/
def keepsReservations (w : SharedHost) : SharedHostEvent → Bool
  | .purchase _ => w.operations.all (·.outstanding.onlyPorts)
  | .turn id opId ok =>
      (w.find id).all fun s => (s.find opId).all fun op => op.keepsReservations w s ok
  | _ => true

/-! ## What is to hold -/

/-- Once all have finished the counters are the sum over the instances that hold a
reservation; no release has been refused; CPU and memory are within the limits of
the host but for what codes have granted since they were last checked. -/
structure HostCounters (w : SharedHost) : Prop where
  settled : w.operations = [] → w.host.used = w.allocated
  released : w.refusedReleases = []
  cpu : w.allocated.cpu ≤ w.host.cpuAllowanceMax.getD 0 + w.granted.cpu
  memory : w.allocated.memory ≤ w.host.memoryMax.getD 0 + w.granted.memory

/-! ## What the operations know -/

/-- The deletion has claimed the row and not yet released it. -/
def Operation.holdsRow (op : Operation) : Bool :=
  match op.work with
  | .destroy (.claimed _) | .destroy (.incusDeleted _) => true
  | _ => false

/-- What an operation has found out is still so. -/
def Operation.Sound (host : HostCapacity) (row : HostedInstance) (op : Operation) : Prop :=
  match op.work with
  | .changePlan plan (.checked used) =>
      (host.withUsed used).planFits (op.read.planDelta plan) = true
  | .destroy (.claimed held) | .destroy (.incusDeleted held) =>
      row.status = .deleted ∧ (row.withStatus op.read.status).held = held ∧
        op.read.resources ≤ held
  | .destroy (.released surplus) | .destroy (.summed surplus _) | .destroy (.counted surplus _ _) =>
      0 ≤ surplus
  | .destroy (.overwritten surplusPorts _) => 0 ≤ surplusPorts
  | .destroy .begun => op.read.status ≠ .deleted
  | _ => True

/-- An instance and its operations, as they are kept. -/
structure HostedSlot.Kept (host : HostCapacity) (s : HostedSlot) : Prop where
  nodup : (s.operations.map Operation.id).Nodup
  floor : 0 ≤ s.floor
  sound : ∀ op ∈ s.operations, op.Sound host s.row
  single : ∀ a ∈ s.operations, ∀ b ∈ s.operations, a.holdsRow = true → b.holdsRow = true → a = b

/-- A shared host, as it is kept: the counters are the shares of the instances. -/
structure SharedHost.Kept (w : SharedHost) : Prop where
  nodup : (w.slots.map HostedSlot.id).Nodup
  slots : ∀ s ∈ w.slots, s.Kept w.host
  counters : w.host.used = Keyed.total HostedSlot.reserved w.slots
  cpu : (Keyed.total HostedSlot.ceiling w.slots).cpu
    ≤ w.host.cpuAllowanceMax.getD 0 + w.granted.cpu
  memory : (Keyed.total HostedSlot.ceiling w.slots).memory
    ≤ w.host.memoryMax.getD 0 + w.granted.memory
  released : w.refusedReleases = []

/-! ## Shares -/

section

variable {w w' : SharedHost} {s : HostedSlot} {op : Operation} {t : Turn} {id opId : ℕ} {ok : Bool}

theorem HostedSlot.reserved_eq : s.reserved
    = s.floor + Keyed.total (·.outstanding.raised) s.operations := by
  have hsum : Keyed.total Operation.outstanding s.operations
      = Keyed.total (·.outstanding.lowered) s.operations
        + Keyed.total (·.outstanding.raised) s.operations := by
    rw [← Keyed.total_add]
    exact Keyed.total_congr fun op _ => (Resources.lowered_add_raised _).symm
  rw [reserved, floor, hsum]
  abel

/-- The share of an instance covers what an operation is still to give back. -/
theorem HostedSlot.Kept.raised_le {host : HostCapacity} (h : s.Kept host) (hop : op ∈ s.operations) :
    op.outstanding.raised ≤ s.reserved := by
  rw [reserved_eq]
  have hraised := Keyed.le_total (g := fun op : Operation => op.outstanding.raised)
    (fun op _ => op.outstanding.raised_nonneg) hop
  exact hraised.trans (le_add_of_nonneg_left h.floor)

theorem HostedSlot.Kept.reserved_nonneg {host : HostCapacity} (h : s.Kept host) :
    0 ≤ s.reserved := by
  rw [reserved_eq]
  exact add_nonneg h.floor (Keyed.total_nonneg fun op _ => op.outstanding.raised_nonneg)

theorem HostedSlot.held_le_ceiling : s.row.held ≤ s.ceiling :=
  le_add_of_nonneg_right (Keyed.total_nonneg fun op _ => op.outstanding.raised_nonneg)

/-- So do the counters. -/
theorem SharedHost.Kept.raised_le (h : w.Kept) (hs : s ∈ w.slots) (hop : op ∈ s.operations) :
    op.outstanding.raised ≤ w.host.used := by
  rw [h.counters]
  have hshare := Keyed.le_total (g := HostedSlot.reserved)
    (fun s hs => (h.slots s hs).reserved_nonneg) hs
  exact ((h.slots s hs).raised_le hop).trans hshare

/-- The counters are the sum over the rows and what is outstanding. -/
theorem SharedHost.Kept.counters_eq (h : w.Kept) : w.host.used = w.allocated
    + Keyed.total (fun s : HostedSlot => Keyed.total Operation.outstanding s.operations) w.slots := by
  rw [h.counters, allocated, ← Keyed.total_add]
  rfl

theorem SharedHost.mem_operations (hs : s ∈ w.slots) (hop : op ∈ s.operations) :
    op ∈ w.operations := List.mem_flatMap.mpr ⟨s, hs, hop⟩

/-- What holds of everything outstanding, and of sums, holds of all of it. -/
theorem SharedHost.outstanding_induction {P : Resources → Prop} (h0 : P 0)
    (hadd : ∀ a b, P a → P b → P (a + b))
    (h : ∀ s ∈ w.slots, ∀ op ∈ s.operations, P op.outstanding) :
    P (Keyed.total (fun s : HostedSlot => Keyed.total Operation.outstanding s.operations) w.slots) :=
  Keyed.total_induction h0 hadd fun s hs => Keyed.total_induction h0 hadd fun op hop => h s hs op hop

/-- A host that is kept is as it should be. -/
theorem SharedHost.Kept.hostCounters (h : w.Kept) : HostCounters w := by
  have hceiling : w.allocated ≤ Keyed.total HostedSlot.ceiling w.slots :=
    Keyed.total_le_total fun s _ => s.held_le_ceiling
  refine ⟨fun hnone => ?_, h.released, hceiling.1.trans h.cpu, hceiling.2.1.trans h.memory⟩
  rw [h.counters_eq]
  have hzero := outstanding_induction (w := w) (P := (· = 0)) rfl
    (fun a b ha hb => by rw [ha, hb, add_zero]) fun s hs op hop => by
      have := mem_operations hs hop
      rw [hnone] at this
      exact absurd this (List.not_mem_nil)
  rw [hzero, add_zero]

/-! ## A turn -/

/-- What the operation has outstanding after its turn. -/
def Turn.outstanding (t : Turn) (op : Operation) : Resources :=
  match t.work with
  | none => 0
  | some work => ({ op with work } : Operation).outstanding

theorem total_afterTurn {f : Operation → Resources} (hn : (s.operations.map Operation.id).Nodup)
    (hop : op ∈ s.operations) :
    Keyed.total f (s.afterTurn op.id t).operations = Keyed.total f s.operations - f op
      + match t.work with
        | none => 0
        | some work => f { op with work } := by
  unfold HostedSlot.afterTurn
  cases t.work with
  | none => exact (Keyed.total_erase hn hop).trans (add_zero _).symm
  | some work => exact Keyed.total_modify hn hop

theorem mem_afterTurn (hn : (s.operations.map Operation.id).Nodup) (hop : op ∈ s.operations)
    {a : Operation} (ha : a ∈ (s.afterTurn op.id t).operations) :
    (a ∈ s.operations ∧ a.id ≠ op.id) ∨ ∃ work, t.work = some work ∧ a = { op with work } := by
  unfold HostedSlot.afterTurn at ha
  cases hwork : t.work with
  | none =>
      rw [hwork] at ha
      obtain ⟨hmem, hne⟩ := Keyed.mem_erase.mp ha
      exact .inl ⟨hmem, hne⟩
  | some work =>
      rw [hwork] at ha
      obtain ⟨b, hb, rfl⟩ := Keyed.mem_modify.mp ha
      split
      · rename_i hid
        have hsame := Option.some.inj ((Keyed.lookup_of_mem hn hb).symm.trans
          (hid ▸ Keyed.lookup_of_mem hn hop))
        exact .inr ⟨work, rfl, by rw [hsame]⟩
      · rename_i hid
        exact .inl ⟨hb, hid⟩

theorem nodup_afterTurn (hn : (s.operations.map Operation.id).Nodup) :
    ((s.afterTurn opId t).operations.map Operation.id).Nodup := by
  unfold HostedSlot.afterTurn
  cases t.work with
  | none => exact Keyed.nodup_erase hn
  | some work =>
      have hids : (Keyed.modify Operation.id opId (fun op => { op with work }) s.operations).map
          Operation.id = s.operations.map Operation.id := Keyed.map_key_modify fun _ => rfl
      exact hids ▸ hn

/-- What another operation knows of the row stands, unless it holds the row. -/
theorem Operation.Sound.of_not_holdsRow {host : HostCapacity} {row row' : HostedInstance}
    (h : op.Sound host row) (hnot : op.holdsRow = false) : op.Sound host row' := by
  obtain ⟨id, read, version, work⟩ := op
  cases work with
  | changePlan plan stage => cases stage <;> exact h
  | redeem codeType codeValue stage => exact h
  | destroy stage =>
      cases stage with
      | claimed held => exact absurd hnot (by simp [holdsRow])
      | incusDeleted held => exact absurd hnot (by simp [holdsRow])
      | _ => exact h

theorem Operation.Sound.deleted {host : HostCapacity} {row : HostedInstance}
    (h : op.Sound host row) (hholds : op.holdsRow = true) : row.status = .deleted := by
  obtain ⟨id, read, version, work⟩ := op
  cases work with
  | destroy stage =>
      cases stage with
      | claimed held => exact h.1
      | incusDeleted held => exact h.1
      | _ => cases hholds
  | _ => cases hholds

/-- The floor and the ceiling of a share do not move outwards. -/
structure Calm (held outstanding held' outstanding' : Resources) : Prop where
  floor : held + outstanding.lowered ≤ held' + outstanding'.lowered
  ceiling : held' + outstanding'.raised ≤ held + outstanding.raised

theorem Calm.rest {held outstanding : Resources} : Calm held outstanding held outstanding :=
  ⟨le_rfl, le_rfl⟩

/-- The row comes to hold what was outstanding. -/
theorem Calm.settle {held outstanding : Resources} :
    Calm held outstanding (held + outstanding) 0 := by
  refine ⟨?_, ?_⟩
  · simpa using outstanding.lowered_le
  · simpa using outstanding.le_raised

theorem Calm.undo {held outstanding : Resources} : Calm held outstanding held 0 := by
  refine ⟨?_, ?_⟩
  · simpa using outstanding.lowered_nonpos
  · simpa using outstanding.raised_nonneg

/-- Less is to be given back. -/
theorem Calm.lower {held outstanding outstanding' : Resources} (h0 : 0 ≤ outstanding')
    (hle : outstanding' ≤ outstanding) : Calm held outstanding held outstanding' := by
  have h := h0.trans hle
  refine ⟨?_, ?_⟩
  · rw [Resources.lowered_of_nonneg h0, Resources.lowered_of_nonneg h]
  · rw [Resources.raised_of_nonneg h0, Resources.raised_of_nonneg h]
    exact add_le_add_right hle held

/-- What a turn is to show: the counters move with the share of the instance, which
stays covered, CPU and memory stay within their limits, and what the operations
know stands. -/
structure Effect (w : SharedHost) (s : HostedSlot) (op : Operation) (t : Turn) : Prop where
  row_id : t.row.id = s.row.id
  counters : t.used
    = w.host.used - (s.row.held + op.outstanding) + (t.row.held + t.outstanding op)
  floor : 0 ≤ s.floor - (s.row.held + op.outstanding.lowered)
    + (t.row.held + (t.outstanding op).lowered)
  cpu : (Keyed.total HostedSlot.ceiling w.slots - (s.row.held + op.outstanding.raised)
      + (t.row.held + (t.outstanding op).raised)).cpu
    ≤ w.host.cpuAllowanceMax.getD 0 + (op.grantedAfter t w.granted).cpu
  memory : (Keyed.total HostedSlot.ceiling w.slots - (s.row.held + op.outstanding.raised)
      + (t.row.held + (t.outstanding op).raised)).memory
    ≤ w.host.memoryMax.getD 0 + (op.grantedAfter t w.granted).memory
  sound : ∀ work, t.work = some work → ({ op with work } : Operation).Sound w.host t.row
  holds : ∀ work, t.work = some work → ({ op with work } : Operation).holdsRow = true →
    op.holdsRow = true ∨ s.row.status ≠ .deleted
  row : t.row = s.row ∨ op.holdsRow = true ∨ s.row.status ≠ .deleted
  refused : t.refused = false

theorem HostedSlot.Kept.afterTurn (h : s.Kept w.host) (hop : op ∈ s.operations)
    (he : Effect w s op t) : (s.afterTurn op.id t).Kept w.host := by
  have hfree : ∀ a ∈ s.operations, a.id ≠ op.id →
      (op.holdsRow = true ∨ s.row.status ≠ .deleted) → a.holdsRow = false := by
    intro a ha hne hrow
    refine Bool.eq_false_iff.mpr fun hholds => ?_
    rcases hrow with hown | hstatus
    · exact hne (congrArg Operation.id (h.single a ha op hop hholds hown))
    · exact hstatus ((h.sound a ha).deleted hholds)
  refine ⟨nodup_afterTurn h.nodup, ?_, fun a ha => ?_, fun a ha b hb hholds hholds' => ?_⟩
  · have hfloor := he.floor
    have htotal := total_afterTurn (t := t) (f := (·.outstanding.lowered)) h.nodup hop
    rw [HostedSlot.floor, htotal]
    refine hfloor.trans_eq ?_
    unfold HostedSlot.floor Turn.outstanding
    cases t.work with
    | none =>
        show _ = t.row.held + _
        rw [Resources.lowered_zero]
        abel
    | some work =>
        show _ = t.row.held + _
        abel
  · rcases mem_afterTurn h.nodup hop ha with ⟨hmem, hne⟩ | ⟨work, hwork, rfl⟩
    · rcases he.row with hrow | hrow
      · show a.Sound w.host t.row
        rw [hrow]
        exact h.sound a hmem
      · exact (h.sound a hmem).of_not_holdsRow (hfree a hmem hne hrow)
    · exact he.sound work hwork
  · rcases mem_afterTurn h.nodup hop ha with ⟨hmem, hne⟩ | ⟨work, hwork, rfl⟩ <;>
      rcases mem_afterTurn h.nodup hop hb with ⟨hmem', hne'⟩ | ⟨work', hwork', rfl⟩
    · exact h.single a hmem b hmem' hholds hholds'
    · rw [hfree a hmem hne (he.holds work' hwork' hholds')] at hholds
      cases hholds
    · rw [hfree b hmem' hne' (he.holds work hwork hholds)] at hholds'
      cases hholds'
    · rw [Option.some.inj (hwork.symm.trans hwork')]

theorem HostedSlot.Kept.withUsed {host : HostCapacity} {used : Resources} (h : s.Kept host) :
    s.Kept (host.withUsed used) := by
  refine ⟨h.nodup, h.floor, fun op hop => ?_, h.single⟩
  have hsound := h.sound op hop
  obtain ⟨id, read, version, work⟩ := op
  cases work with
  | changePlan plan stage => cases stage <;> exact hsound
  | redeem codeType codeValue stage => exact hsound
  | destroy stage => cases stage <;> exact hsound

theorem HostedSlot.floor_ceiling_afterTurn (hn : (s.operations.map Operation.id).Nodup)
    (hop : op ∈ s.operations) :
    (s.afterTurn op.id t).reserved
        = s.reserved - (s.row.held + op.outstanding) + (t.row.held + t.outstanding op) ∧
      (s.afterTurn op.id t).ceiling = s.ceiling - (s.row.held + op.outstanding.raised)
        + (t.row.held + (t.outstanding op).raised) := by
  have hreserved := total_afterTurn (t := t) (f := Operation.outstanding) hn hop
  have hceiling := total_afterTurn (t := t) (f := (·.outstanding.raised)) hn hop
  unfold HostedSlot.reserved HostedSlot.ceiling Turn.outstanding
  rw [hreserved, hceiling]
  have hrow : (s.afterTurn op.id t).row = t.row := rfl
  rw [hrow]
  cases t.work with
  | none =>
      rw [Resources.raised_zero]
      exact ⟨by abel, by abel⟩
  | some work => exact ⟨by abel, by abel⟩

/-- The turn of an operation that shows what it is to show keeps the host. -/
theorem SharedHost.Kept.turn (h : w.Kept) (hs : s ∈ w.slots) (hop : op ∈ s.operations)
    (he : Effect w s op t) :
    ({ w with
      host := w.host.withUsed t.used
      slots := Keyed.modify HostedSlot.id s.id (·.afterTurn op.id t) w.slots
      refusedReleases := w.refusedReleases ++ (if t.refused then [id] else [])
      granted := op.grantedAfter t w.granted } : SharedHost).Kept := by
  have hslot := h.slots s hs
  obtain ⟨hreserved, hceiling⟩ := HostedSlot.floor_ceiling_afterTurn (t := t) hslot.nodup hop
  have hids : (Keyed.modify HostedSlot.id s.id (·.afterTurn op.id t) w.slots).map HostedSlot.id
      = w.slots.map HostedSlot.id := Keyed.map_key_modify_of fun _ _ => he.row_id
  have htotal := fun f : HostedSlot → Resources =>
    Keyed.total_modify (g := f) (f := (·.afterTurn op.id t)) h.nodup hs
  refine ⟨hids ▸ h.nodup, fun a ha => ?_, ?_, ?_, ?_, ?_⟩
  · obtain ⟨b, hb, rfl⟩ := Keyed.mem_modify.mp ha
    refine HostedSlot.Kept.withUsed ?_
    split
    · rename_i hid
      have hsame := Option.some.inj ((Keyed.lookup_of_mem h.nodup hb).symm.trans
        (hid ▸ Keyed.lookup_of_mem h.nodup hs))
      rw [hsame]
      exact hslot.afterTurn hop he
    · exact h.slots b hb
  · show t.used = _
    rw [htotal, hreserved, he.counters, h.counters]
    abel
  · show (Keyed.total HostedSlot.ceiling _).cpu ≤ _
    rw [htotal, hceiling]
    refine le_of_eq_of_le (congrArg Resources.cpu ?_) he.cpu
    abel
  · show (Keyed.total HostedSlot.ceiling _).memory ≤ _
    rw [htotal, hceiling]
    refine le_of_eq_of_le (congrArg Resources.memory ?_) he.memory
    abel
  · simp [h.released, he.refused]

/-- A turn that is calm and grants nothing stays covered and within the limits. -/
theorem Effect.of_calm (h : w.Kept) (hs : s ∈ w.slots) (hid : t.row.id = s.row.id)
    (hcounters : t.used
      = w.host.used - (s.row.held + op.outstanding) + (t.row.held + t.outstanding op))
    (hcalm : Calm s.row.held op.outstanding t.row.held (t.outstanding op))
    (hgranted : op.grantedAfter t w.granted = w.granted)
    (hsound : ∀ work, t.work = some work → ({ op with work } : Operation).Sound w.host t.row)
    (hholds : ∀ work, t.work = some work → ({ op with work } : Operation).holdsRow = true →
      op.holdsRow = true ∨ s.row.status ≠ .deleted)
    (hrow : t.row = s.row ∨ op.holdsRow = true ∨ s.row.status ≠ .deleted)
    (hrefused : t.refused = false) : Effect w s op t := by
  have hceiling : Keyed.total HostedSlot.ceiling w.slots - (s.row.held + op.outstanding.raised)
      + (t.row.held + (t.outstanding op).raised) ≤ Keyed.total HostedSlot.ceiling w.slots :=
    (add_le_add_right hcalm.ceiling _).trans_eq (sub_add_cancel _ _)
  refine ⟨hid, hcounters, ?_, ?_, ?_, hsound, hholds, hrow, hrefused⟩
  · refine (h.slots s hs).floor.trans ?_
    exact (sub_add_cancel _ _).symm.trans_le (add_le_add_right hcalm.floor _)
  · rw [hgranted]
    exact hceiling.1.trans h.cpu
  · rw [hgranted]
    exact hceiling.2.1.trans h.memory


/-! ## One lemma a statement -/

/-- A statement that writes neither the counters nor what a row holds. -/
theorem Effect.rest (h : w.Kept) (hs : s ∈ w.slots) (hused : t.used = w.host.used)
    (hrow : t.row = s.row) (houtstanding : t.outstanding op = op.outstanding)
    (hgranted : op.grantedAfter t w.granted = w.granted)
    (hsound : ∀ work, t.work = some work → ({ op with work } : Operation).Sound w.host s.row)
    (hholds : ∀ work, t.work = some work → ({ op with work } : Operation).holdsRow = true →
      op.holdsRow = true) (hrefused : t.refused = false) : Effect w s op t := by
  refine .of_calm h hs (congrArg HostedInstance.id hrow) ?_ ?_ hgranted (hrow ▸ hsound)
    (fun work hwork hrow => .inl (hholds work hwork hrow)) (.inl hrow) hrefused
  · rw [hused, hrow, houtstanding]
    abel
  · rw [hrow, houtstanding]
    exact .rest

/-- The counters are lowered by what was outstanding, and the operation is over. -/
theorem Effect.undo (h : w.Kept) (hs : s ∈ w.slots) (hgranted : ∀ t, op.grantedAfter t w.granted
    = w.granted) : Effect w s op
      { Turn.goOn w s none with used := w.host.used + -op.outstanding } := by
  refine .of_calm h hs rfl ?_ .undo (hgranted _) (fun _ => nofun) (fun _ => nofun) (.inl rfl) rfl
  show w.host.used + -op.outstanding
    = w.host.used - (s.row.held + op.outstanding) + (s.row.held + 0)
  abel

/-- The row comes to hold what was outstanding, and the operation is over. -/
theorem Effect.settle (h : w.Kept) (hs : s ∈ w.slots) (hid : t.row.id = s.row.id)
    (hused : t.used = w.host.used) (hwork : t.work = none)
    (hheld : t.row.held = s.row.held + op.outstanding)
    (hgranted : op.grantedAfter t w.granted = w.granted)
    (hrow : op.holdsRow = true ∨ s.row.status ≠ .deleted) (hrefused : t.refused = false) :
    Effect w s op t := by
  have hnone : t.outstanding op = 0 := by rw [Turn.outstanding, hwork]
  refine .of_calm h hs hid ?_ ?_ hgranted (fun _ => ?_) (fun _ => ?_) (.inr hrow) hrefused
  · rw [hused, hheld, hnone]
    abel
  · rw [hheld, hnone]
    exact .settle
  · rw [hwork]
    nofun
  · rw [hwork]
    nofun

theorem HostedInstance.planDelta_congr {i j : HostedInstance} (h : i.sameSpecs j = true)
    (plan : PlanResources) : i.planDelta plan = j.planDelta plan := by
  simp only [sameSpecs, Bool.and_eq_true, beq_iff_eq] at h
  obtain ⟨⟨⟨⟨hcpu, hmemory⟩, hdisk⟩, hmode⟩, hports⟩ := h
  rw [planDelta, planDelta, hcpu, hmemory, hdisk, hmode, hports]

/-- `performPlanChange` turns what was outstanding into what the row holds. -/
theorem held_changedPlan {i read : HostedInstance} (hallocated : i.status.allocated = true)
    (hspecs : read.sameSpecs i = true) (plan : PlanResources) :
    (i.changedPlan plan).held = i.held + read.planDelta plan := by
  have hafter : (i.changedPlan plan).status.allocated = true := hallocated
  rw [HostedInstance.held_of_allocated hafter, HostedInstance.held_of_allocated hallocated,
    HostedInstance.planDelta_congr hspecs, ← HostedInstance.resources_changedPlan]
  abel

/-- So does a delivery. -/
theorem held_deliver {codeType : RedeemCodeType} {codeValue : ℕ} {i read : HostedInstance}
    (hallocated : i.status.allocated = true) (hread : codeType.asRead read i = true) :
    (codeType.deliver codeValue read i).held = i.held + codeType.amount codeValue := by
  cases codeType with
  | cpu =>
      simp only [RedeemCodeType.asRead, beq_iff_eq] at hread
      simp only [HostedInstance.held, RedeemCodeType.deliver, hallocated, if_true]
      ext <;> simp [HostedInstance.resources, HostedInstance.reservedPorts, RedeemCodeType.amount,
        hread]
  | memory =>
      simp only [RedeemCodeType.asRead, beq_iff_eq] at hread
      simp only [HostedInstance.held, RedeemCodeType.deliver, hallocated, if_true]
      ext <;> simp [HostedInstance.resources, HostedInstance.reservedPorts, RedeemCodeType.amount,
        hread]
  | disk =>
      simp only [RedeemCodeType.asRead, beq_iff_eq] at hread
      simp only [HostedInstance.held, RedeemCodeType.deliver, hallocated, if_true]
      ext <;> simp [HostedInstance.resources, HostedInstance.reservedPorts, RedeemCodeType.amount,
        hread]

theorem InstanceStatus.ne_deleted_of_allocated {status : InstanceStatus}
    (h : status.allocated = true) : status ≠ .deleted := by
  rintro rfl
  cases h

/-! ## A plan change -/

theorem planFits_limits {host : HostCapacity} {delta : Resources} (h : host.planFits delta = true) :
    (0 < delta.cpu → host.used.cpu + delta.cpu ≤ host.cpuAllowanceMax.getD 0) ∧
      (0 < delta.memory → host.used.memory + delta.memory ≤ host.memoryMax.getD 0) := by
  simp only [HostCapacity.planFits, Bool.and_eq_true, Bool.not_eq_true', decide_eq_false_iff_not,
    not_and, not_lt] at h
  exact ⟨h.1.1.1, h.1.1.2⟩

/-- What the operations are to give back. -/
def SharedHost.lowered (w : SharedHost) : Resources :=
  Keyed.total (fun s : HostedSlot =>
    Keyed.total (fun op : Operation => op.outstanding.lowered) s.operations) w.slots

theorem SharedHost.lowered_induction {P : Resources → Prop} (h0 : P 0)
    (hadd : ∀ a b, P a → P b → P (a + b)) (h : ∀ op ∈ w.operations, P op.outstanding.lowered) :
    P w.lowered :=
  Keyed.total_induction h0 hadd fun _ hs =>
    Keyed.total_induction h0 hadd fun op hop => h op (mem_operations hs hop)

/-- The counters and the ceiling differ by what is to be given back. -/
theorem SharedHost.Kept.ceiling_eq (h : w.Kept) :
    w.host.used = Keyed.total HostedSlot.ceiling w.slots + w.lowered := by
  rw [h.counters, lowered, ← Keyed.total_add]
  refine Keyed.total_congr fun s _ => ?_
  have hsum : Keyed.total Operation.outstanding s.operations
      = Keyed.total (fun op => op.outstanding.raised) s.operations
        + Keyed.total (fun op => op.outstanding.lowered) s.operations := by
    rw [← Keyed.total_add]
    refine Keyed.total_congr fun op _ => ?_
    rw [add_comm, Resources.lowered_add_raised]
  rw [HostedSlot.reserved, HostedSlot.ceiling, hsum, add_assoc]

/-- If nobody is about to give CPU back, the counter is the ceiling. -/
theorem SharedHost.Kept.cpu_eq (h : w.Kept)
    (hall : ∀ op ∈ w.operations, 0 ≤ op.outstanding.cpu) :
    (Keyed.total HostedSlot.ceiling w.slots).cpu = w.host.used.cpu := by
  have hzero := lowered_induction (w := w) (P := fun r => r.cpu = 0) rfl
    (fun a b ha hb => by simp [ha, hb]) fun op hop => min_eq_right (hall op hop)
  rw [h.ceiling_eq, Resources.cpu_add, hzero, add_zero]

theorem SharedHost.Kept.memory_eq (h : w.Kept)
    (hall : ∀ op ∈ w.operations, 0 ≤ op.outstanding.memory) :
    (Keyed.total HostedSlot.ceiling w.slots).memory = w.host.used.memory := by
  have hzero := lowered_induction (w := w) (P := fun r => r.memory = 0) rfl
    (fun a b ha hb => by simp [ha, hb]) fun op hop => min_eq_right (hall op hop)
  rw [h.ceiling_eq, Resources.memory_add, hzero, add_zero]

/-- A plan change reserves what the counters that it has read leave room for. -/
theorem effect_reserve {plan : PlanResources} (h : w.Kept)
    (hwork : op.work = .changePlan plan (.checked w.host.used))
    (hfits : w.host.planFits (op.read.planDelta plan) = true)
    (hok : w.admits s (op.read.planDelta plan) = true) : Effect w s op
      { Turn.goOn w s (some (.changePlan plan .reserved)) with
          used := w.host.used + op.read.planDelta plan } := by
  obtain ⟨hcpu, hmemory⟩ := planFits_limits hfits
  simp only [SharedHost.admits, Bool.and_eq_true, Bool.or_eq_true, decide_eq_true_eq,
    List.all_eq_true] at hok
  obtain ⟨⟨hcpus, hmemories⟩, hcovered⟩ := hok
  have hnone : op.outstanding = 0 := by rw [Operation.outstanding, hwork]
  refine ⟨rfl, ?_, ?_, ?_, ?_, ?_, ?_, .inl rfl, rfl⟩
  · rw [hnone]
    show w.host.used + op.read.planDelta plan
      = w.host.used - (s.row.held + 0) + (s.row.held + op.read.planDelta plan)
    abel
  · rw [hnone]
    refine hcovered.trans_eq ?_
    show s.floor + (op.read.planDelta plan).lowered
      = s.floor - (s.row.held + 0) + (s.row.held + (op.read.planDelta plan).lowered)
    abel
  · rw [hnone]
    show _ - (s.row.held.cpu + 0) + (s.row.held.cpu + max (op.read.planDelta plan).cpu 0) ≤ _
    simp only [Operation.grantedAfter, hwork, Turn.goOn]
    rcases hcpus with hle | hall
    · have hlimit := h.cpu
      rw [if_neg (by omega), max_eq_right hle]
      omega
    · by_cases hpos : 0 < (op.read.planDelta plan).cpu
      · have hlimit := hcpu hpos
        have heq := h.cpu_eq hall
        rw [if_pos hpos, max_eq_left hpos.le]
        omega
      · have hlimit := h.cpu
        rw [if_neg hpos, max_eq_right (by omega)]
        omega
  · rw [hnone]
    show _ - (s.row.held.memory + 0)
      + (s.row.held.memory + max (op.read.planDelta plan).memory 0) ≤ _
    simp only [Operation.grantedAfter, hwork, Turn.goOn]
    rcases hmemories with hle | hall
    · have hlimit := h.memory
      rw [if_neg (by omega), max_eq_right hle]
      omega
    · by_cases hpos : 0 < (op.read.planDelta plan).memory
      · have hlimit := hmemory hpos
        have heq := h.memory_eq hall
        rw [if_pos hpos, max_eq_left hpos.le]
        omega
      · have hlimit := h.memory
        rw [if_neg hpos, max_eq_right (by omega)]
        omega
  · rintro work ⟨⟩
    trivial
  · rintro work ⟨⟩
    nofun

theorem effect_changePlan {plan : PlanResources} {stage : PlanChangeStage} (h : w.Kept)
    (hs : s ∈ w.slots) (hop : op ∈ s.operations) (hwork : op.work = .changePlan plan stage)
    (hok : op.keepsReservations w s ok = true) : Effect w s op (stage.next w s op plan ok) := by
  have hsound := (h.slots s hs).sound op hop
  obtain ⟨opId, read, version, work⟩ := op
  obtain rfl : work = .changePlan plan stage := hwork
  cases stage with
  | begun =>
      simp only [PlanChangeStage.next]
      split
      · rename_i hfits
        refine .rest h hs rfl rfl rfl rfl ?_ ?_ rfl
        · rintro work ⟨⟩
          exact hfits
        · rintro work ⟨⟩
          nofun
      · exact .rest h hs rfl rfl rfl rfl (fun _ => nofun) (fun _ => nofun) rfl
  | checked used =>
      simp only [PlanChangeStage.next]
      split
      · rename_i hzero
        refine .rest h hs rfl rfl hzero ?_ ?_ ?_ rfl
        · simp [Operation.grantedAfter, Turn.goOn, hzero]
        · rintro work ⟨⟩
          trivial
        · rintro work ⟨⟩
          nofun
      split
      · rename_i hused
        subst hused
        simp only [Operation.keepsReservations, bne_self_eq_false, Bool.false_or] at hok
        exact effect_reserve h rfl hsound hok
      · exact .rest h hs rfl rfl rfl rfl (fun _ => nofun) (fun _ => nofun) rfl
  | reserved =>
      refine .rest h hs rfl rfl ?_ rfl ?_ ?_ rfl
      · cases ok <;> rfl
      · rintro work ⟨⟩
        cases ok <;> trivial
      · rintro work ⟨⟩
        cases ok <;> nofun
  | appliedToIncus =>
      simp only [PlanChangeStage.next]
      split
      · rename_i hcommit
        obtain ⟨rfl, hversion⟩ := hcommit
        have hversion : s.version = version := hversion
        simp only [Operation.keepsReservations, hversion, Bool.not_true, bne_self_eq_false,
          Bool.false_or, Bool.and_eq_true] at hok
        obtain ⟨hallocated, hspecs⟩ := hok
        exact .settle h hs rfl rfl rfl (held_changedPlan hallocated hspecs plan) rfl
          (.inr (InstanceStatus.ne_deleted_of_allocated hallocated)) rfl
      · refine .rest h hs rfl rfl rfl rfl ?_ ?_ rfl
        · rintro work ⟨⟩
          trivial
        · rintro work ⟨⟩
          nofun
  | undoing => exact .undo h hs fun _ => rfl

/-! ## A delivery -/

theorem RedeemCodeType.amount_nonneg (codeType : RedeemCodeType) (codeValue : ℕ) :
    0 ≤ codeType.amount codeValue := by
  cases codeType <;> simp [Resources.le_def, amount]

/-- A delivery adds to the counters without a look at the limits. -/
theorem effect_adjust {codeType : RedeemCodeType} {codeValue : ℕ} (h : w.Kept) (hs : s ∈ w.slots)
    (hwork : op.work = .redeem codeType codeValue .claimed) : Effect w s op
      { Turn.goOn w s (some (.redeem codeType codeValue .hostAdjusted)) with
          used := w.host.used + codeType.amount codeValue } := by
  have hamount := codeType.amount_nonneg codeValue
  have hnone : op.outstanding = 0 := by rw [Operation.outstanding, hwork]
  have hraised : Keyed.total HostedSlot.ceiling w.slots - (s.row.held + 0)
      + (s.row.held + codeType.amount codeValue)
        = Keyed.total HostedSlot.ceiling w.slots + codeType.amount codeValue := by abel
  refine ⟨rfl, ?_, ?_, ?_, ?_, ?_, ?_, .inl rfl, rfl⟩
  · rw [hnone]
    show w.host.used + codeType.amount codeValue
      = w.host.used - (s.row.held + 0) + (s.row.held + codeType.amount codeValue)
    abel
  · rw [hnone]
    refine (h.slots s hs).floor.trans_eq ?_
    show s.floor = s.floor - (s.row.held + 0) + (s.row.held + (codeType.amount codeValue).lowered)
    rw [Resources.lowered_of_nonneg hamount]
    abel
  · rw [hnone]
    show (_ + (s.row.held + (codeType.amount codeValue).raised)).cpu ≤ _
    rw [Resources.raised_of_nonneg hamount, Resources.raised_zero, hraised, Resources.cpu_add]
    simp only [Operation.grantedAfter, hwork, Resources.cpu_add]
    linarith [h.cpu]
  · rw [hnone]
    show (_ + (s.row.held + (codeType.amount codeValue).raised)).memory ≤ _
    rw [Resources.raised_of_nonneg hamount, Resources.raised_zero, hraised, Resources.memory_add]
    simp only [Operation.grantedAfter, hwork, Resources.memory_add]
    linarith [h.memory]
  · rintro work ⟨⟩
    trivial
  · rintro work ⟨⟩
    nofun

theorem effect_redeem {codeType : RedeemCodeType} {codeValue : ℕ} {stage : RedeemStage}
    (h : w.Kept) (hs : s ∈ w.slots) (hwork : op.work = .redeem codeType codeValue stage)
    (hok : op.keepsReservations w s ok = true) :
    Effect w s op (stage.next w s op codeType codeValue ok) := by
  obtain ⟨opId, read, version, work⟩ := op
  obtain rfl : work = .redeem codeType codeValue stage := hwork
  cases stage with
  | begun =>
      simp only [RedeemStage.next]
      split
      · refine .rest h hs rfl rfl ?_ rfl ?_ ?_ rfl
        · cases ok <;> rfl
        · intro work hwork
          cases ok <;> cases hwork
          trivial
        · intro work hwork
          cases ok <;> cases hwork
          nofun
      · exact .rest h hs rfl rfl rfl rfl (fun _ => nofun) (fun _ => nofun) rfl
  | claimed => exact effect_adjust h hs rfl
  | hostAdjusted =>
      refine .rest h hs rfl rfl ?_ rfl ?_ ?_ rfl
      · cases ok <;> rfl
      · rintro work ⟨⟩
        trivial
      · rintro work ⟨⟩
        nofun
  | remoteApplied =>
      simp only [RedeemStage.next]
      split
      · rename_i hwritten
        subst hwritten
        simp only [Operation.keepsReservations, Bool.not_true, Bool.false_or,
          Bool.and_eq_true] at hok
        exact .settle h hs (by cases codeType <;> rfl) rfl rfl (held_deliver hok.1 hok.2) rfl
          (.inr (InstanceStatus.ne_deleted_of_allocated hok.1)) rfl
      · refine .rest h hs rfl rfl rfl rfl ?_ ?_ rfl
        · rintro work ⟨⟩
          trivial
        · rintro work ⟨⟩
          nofun
  | unwritten =>
      simp only [Operation.keepsReservations, Bool.and_eq_true, Bool.or_eq_true, bne_iff_ne,
        ne_eq] at hok
      obtain ⟨rfl, hok⟩ := hok
      simp only [RedeemStage.next]
      rw [if_neg (by simp)]
      split
      · rename_i hdisk
        obtain ⟨hallocated, hread⟩ := hok.resolve_left (not_not_intro hdisk)
        exact .settle h hs (by cases codeType <;> rfl) rfl rfl (held_deliver hallocated hread) rfl
          (.inr (InstanceStatus.ne_deleted_of_allocated hallocated)) rfl
      · refine .rest h hs rfl rfl rfl rfl ?_ ?_ rfl
        · rintro work ⟨⟩
          trivial
        · rintro work ⟨⟩
          nofun
  | undoing => exact .undo h hs fun _ => rfl

/-! ## A deletion -/

theorem HostCapacity.release_of_le {host : HostCapacity} {amounts : Resources} (h0 : 0 ≤ amounts)
    (hle : amounts ≤ host.used) :
    host.release amounts = some (host.withUsed (host.used - amounts)) := by
  have hok : decrementHostResourceCounters (fun _ => some host) 0 amounts = .ok _ :=
    decrementHostResourceCounters_ok rfl h0 hle
  rw [release, hok]
  exact Function.update_self ..

/-- What the other operations have outstanding. -/
theorem SharedHost.Kept.others_induction {P : Resources → Prop} {p : Resources → Bool} (h : w.Kept)
    (hs : s ∈ w.slots) (hop : op ∈ s.operations) (hothers : w.othersAll s.id op.id p = true)
    (hp : ∀ r, p r = true → P r) (h0 : P 0) (hadd : ∀ a b, P a → P b → P (a + b)) :
    P (Keyed.total (fun s : HostedSlot => Keyed.total Operation.outstanding s.operations) w.slots
      - op.outstanding) := by
  have hslot := h.slots s hs
  have hrest := Keyed.total_modify (f := (·.afterTurn op.id (Turn.goOn w s none)))
    (g := fun s : HostedSlot => Keyed.total Operation.outstanding s.operations) h.nodup hs
  have hown := total_afterTurn (t := Turn.goOn w s none) (f := Operation.outstanding)
    hslot.nodup hop
  have hdrop : Keyed.total (fun s : HostedSlot => Keyed.total Operation.outstanding s.operations)
      w.slots - op.outstanding = Keyed.total (fun s => Keyed.total Operation.outstanding s.operations)
        (Keyed.modify HostedSlot.id s.id (·.afterTurn op.id (Turn.goOn w s none)) w.slots) := by
    rw [hrest, hown]
    show _ = _ - _ + (_ - _ + 0)
    abel
  rw [hdrop]
  refine Keyed.total_induction h0 hadd fun a ha => Keyed.total_induction h0 hadd fun b hb => hp _ ?_
  simp only [othersAll, List.all_eq_true, Bool.or_eq_true, Bool.and_eq_true, beq_iff_eq] at hothers
  obtain ⟨c, hc, rfl⟩ := Keyed.mem_modify.mp ha
  split at hb
  · rename_i hid
    have hsame : c = s := Option.some.inj ((Keyed.lookup_of_mem h.nodup hc).symm.trans
      (hid ▸ Keyed.lookup_of_mem h.nodup hs))
    subst hsame
    rcases mem_afterTurn hslot.nodup hop hb with ⟨hmem, hne⟩ | ⟨work, hwork, -⟩
    · exact (hothers c hs b hmem).resolve_left fun hown => hne hown.2
    · cases hwork
  · rename_i hid
    exact (hothers c hc b hb).resolve_left fun hown => hid hown.1

/-- The claim takes the row out of the sums, with what it holds. -/
theorem effect_claim (h : w.Kept) (hwork : op.work = .destroy .begun)
    (hread : op.read.status ≠ .deleted) (hstatus : s.row.status = op.read.status)
    (hheld : op.read.resources ≤ s.row.held)
    (hall : ∀ a ∈ s.operations, 0 ≤ a.outstanding) :
    Effect w s op ((Turn.goOn w s (some (.destroy (.claimed s.row.held)))).write
      (s.row.withStatus .deleted)) := by
  have hnone : op.outstanding = 0 := by rw [Operation.outstanding, hwork]
  have hlowered : Keyed.total (fun a : Operation => a.outstanding.lowered) s.operations = 0 :=
    Keyed.total_eq_zero fun a ha => Resources.lowered_of_nonneg (hall a ha)
  have hnothing : (s.row.withStatus .deleted).held = 0 :=
    HostedInstance.held_of_not_allocated rfl
  have hceiling : Keyed.total HostedSlot.ceiling w.slots - (s.row.held + 0) + (0 + s.row.held)
      = Keyed.total HostedSlot.ceiling w.slots := by abel
  have hraised := Resources.raised_of_nonneg s.row.held_nonneg
  refine ⟨rfl, ?_, ?_, ?_, ?_, ?_, ?_, .inr (.inr (hstatus ▸ hread)), rfl⟩
  · rw [hnone]
    show w.host.used
      = w.host.used - (s.row.held + 0) + ((s.row.withStatus .deleted).held + s.row.held)
    rw [hnothing]
    abel
  · rw [hnone]
    show 0 ≤ s.row.held + Keyed.total (fun a : Operation => a.outstanding.lowered) s.operations
      - (s.row.held + 0) + ((s.row.withStatus .deleted).held + s.row.held.lowered)
    rw [hlowered, hnothing, Resources.lowered_of_nonneg s.row.held_nonneg]
    refine le_of_eq ?_
    abel
  · rw [hnone]
    show (_ - (s.row.held + 0) + ((s.row.withStatus .deleted).held + s.row.held.raised)).cpu ≤ _
    rw [hnothing, hraised, hceiling]
    simp only [Operation.grantedAfter, hwork]
    exact h.cpu
  · rw [hnone]
    show (_ - (s.row.held + 0) + ((s.row.withStatus .deleted).held + s.row.held.raised)).memory ≤ _
    rw [hnothing, hraised, hceiling]
    simp only [Operation.grantedAfter, hwork]
    exact h.memory
  · rintro work ⟨⟩
    have hback : (s.row.withStatus .deleted).withStatus op.read.status = s.row := by
      rw [← hstatus]
      rfl
    exact ⟨rfl, congrArg HostedInstance.held hback, hheld⟩
  · rintro work ⟨⟩
    exact fun _ => .inr (hstatus ▸ hread)

/-- The release is not refused: the counters cover what the claim has taken over. -/
theorem effect_release {held : Resources} (h : w.Kept) (hs : s ∈ w.slots) (hop : op ∈ s.operations)
    (hwork : op.work = .destroy (.incusDeleted held)) (hheld : op.read.resources ≤ held) :
    Effect w s op (DestroyStage.next w s op ok (.incusDeleted held)) := by
  have houtstanding : op.outstanding = held := by rw [Operation.outstanding, hwork]
  have hcovered := h.raised_le hs hop
  rw [houtstanding] at hcovered
  have hrelease := HostCapacity.release_of_le op.read.resources_nonneg
    (hheld.trans (held.le_raised.trans hcovered))
  have hsurplus : 0 ≤ held - op.read.resources := sub_nonneg.mpr hheld
  simp only [DestroyStage.next, hrelease]
  refine .of_calm h hs rfl ?_ ?_ (by rw [Operation.grantedAfter, hwork]) ?_ ?_ (.inl rfl) rfl
  · rw [houtstanding]
    show w.host.used - op.read.resources
      = w.host.used - (s.row.held + held) + (s.row.held + (held - op.read.resources))
    abel
  · rw [houtstanding]
    exact .lower hsurplus (sub_le_self held op.read.resources_nonneg)
  · rintro work ⟨⟩
    exact hsurplus
  · rintro work ⟨⟩
    nofun

/-- CPU, memory and disk are overwritten with current sums, while the others have
none of them outstanding. -/
theorem effect_overwrite {surplus sums : Resources} {ports : ℤ} (h : w.Kept) (hs : s ∈ w.slots)
    (hop : op ∈ s.operations) (hwork : op.work = .destroy (.counted surplus sums ports))
    (h0 : 0 ≤ surplus) (hsums : (sums - w.allocated).onlyPorts = true)
    (hothers : w.othersAll s.id op.id Resources.onlyPorts = true) :
    Effect w s op (DestroyStage.next w s op ok (.counted surplus sums ports)) := by
  have houtstanding : op.outstanding = surplus := by rw [Operation.outstanding, hwork]
  have hrest := h.others_induction (P := fun r => r.cpu = 0 ∧ r.memory = 0 ∧ r.disk = 0) hs hop
    hothers (fun r hr => by simpa [Resources.onlyPorts, and_assoc] using hr) ⟨rfl, rfl, rfl⟩
    (fun a b ha hb => by simp [ha, hb])
  have hcounters := h.counters_eq
  simp only [Resources.onlyPorts, Bool.and_eq_true, beq_iff_eq, Resources.cpu_sub,
    Resources.memory_sub, Resources.disk_sub] at hsums
  simp only [houtstanding, Resources.cpu_sub, Resources.memory_sub, Resources.disk_sub] at hrest
  have hports : 0 ≤ surplus.portCount := h0.2.2.2
  refine .of_calm h hs rfl ?_ ?_ (by rw [Operation.grantedAfter, hwork]) ?_ ?_ (.inl rfl) rfl
  · rw [houtstanding, hcounters]
    have hused := congrArg Resources.portCount hcounters
    simp only [Resources.portCount_add] at hused
    show (⟨sums.cpu, sums.memory, sums.disk, w.host.used.portCount⟩ : Resources)
      = _ - (s.row.held + surplus) + (s.row.held + ⟨0, 0, 0, surplus.portCount⟩)
    ext <;> simp only [Resources.cpu_add, Resources.memory_add, Resources.disk_add,
      Resources.portCount_add, Resources.cpu_sub, Resources.memory_sub, Resources.disk_sub,
      Resources.portCount_sub] <;> omega
  · rw [houtstanding]
    exact .lower ⟨le_rfl, le_rfl, le_rfl, hports⟩ ⟨h0.1, h0.2.1, h0.2.2.1, le_rfl⟩
  · rintro work ⟨⟩
    exact hports
  · rintro work ⟨⟩
    nofun

/-- So are the ports. -/
theorem effect_overwritePorts {surplusPorts ports : ℤ} (h : w.Kept) (hs : s ∈ w.slots)
    (hop : op ∈ s.operations) (hwork : op.work = .destroy (.overwritten surplusPorts ports))
    (h0 : 0 ≤ surplusPorts) (hports : ports = w.allocated.portCount)
    (hothers : w.othersAll s.id op.id (fun r => r.portCount == 0) = true) :
    Effect w s op (DestroyStage.next w s op ok (.overwritten surplusPorts ports)) := by
  have houtstanding : op.outstanding = ⟨0, 0, 0, surplusPorts⟩ := by
    rw [Operation.outstanding, hwork]
  have hrest := h.others_induction (P := fun r => r.portCount = 0) hs hop hothers
    (fun r hr => by simpa using hr) rfl (fun a b ha hb => by simp [ha, hb])
  have hcounters := h.counters_eq
  simp only [houtstanding, Resources.portCount_sub] at hrest
  refine .of_calm h hs rfl ?_ ?_ (by rw [Operation.grantedAfter, hwork]) (fun _ => nofun)
    (fun _ => nofun) (.inl rfl) rfl
  · rw [houtstanding]
    show (⟨w.host.used.cpu, w.host.used.memory, w.host.used.disk, ports⟩ : Resources)
      = w.host.used - (s.row.held + ⟨0, 0, 0, surplusPorts⟩) + (s.row.held + 0)
    have hused := congrArg Resources.portCount hcounters
    simp only [Resources.portCount_add] at hused
    ext <;> simp only [Resources.cpu_add, Resources.memory_add, Resources.disk_add,
      Resources.portCount_add, Resources.cpu_sub, Resources.memory_sub, Resources.disk_sub,
      Resources.portCount_sub, Resources.cpu_zero, Resources.memory_zero, Resources.disk_zero,
      Resources.portCount_zero] <;> omega
  · rw [houtstanding]
    exact .lower le_rfl ⟨le_rfl, le_rfl, le_rfl, h0⟩

theorem effect_destroy {stage : DestroyStage} (h : w.Kept) (hs : s ∈ w.slots)
    (hop : op ∈ s.operations) (hwork : op.work = .destroy stage)
    (hok : op.keepsReservations w s ok = true) : Effect w s op (stage.next w s op ok) := by
  have hsound := (h.slots s hs).sound op hop
  obtain ⟨opId, read, version, work⟩ := op
  obtain rfl : work = .destroy stage := hwork
  cases stage with
  | begun =>
      simp only [DestroyStage.next]
      split
      · rename_i hclaim
        obtain ⟨rfl, hstatus⟩ := hclaim
        simp only [Operation.keepsReservations, hstatus, Bool.not_true, bne_self_eq_false,
          Bool.false_or, Bool.and_eq_true, decide_eq_true_eq, List.all_eq_true] at hok
        exact effect_claim h rfl hsound hstatus hok.1 hok.2
      · exact .rest h hs rfl rfl rfl rfl (fun _ => nofun) (fun _ => nofun) rfl
  | claimed held =>
      obtain ⟨hdeleted, hback, -⟩ := id hsound
      simp only [DestroyStage.next]
      split
      · refine .rest h hs rfl rfl rfl rfl ?_ ?_ rfl
        · rintro work ⟨⟩
          exact hsound
        · exact fun _ _ _ => rfl
      · have hnothing : s.row.held = 0 := HostedInstance.held_of_not_allocated (by rw [hdeleted]; rfl)
        refine .settle h hs rfl rfl rfl ?_ rfl (.inl rfl) rfl
        rw [hnothing, zero_add]
        exact hback
  | incusDeleted held => exact effect_release h hs hop rfl hsound.2.2
  | released surplus =>
      refine .rest h hs rfl rfl rfl rfl ?_ ?_ rfl
      · rintro work ⟨⟩
        exact hsound
      · rintro work ⟨⟩
        nofun
  | summed surplus sums =>
      refine .rest h hs rfl rfl rfl rfl ?_ ?_ rfl
      · rintro work ⟨⟩
        exact hsound
      · rintro work ⟨⟩
        nofun
  | counted surplus sums ports =>
      simp only [Operation.keepsReservations, Bool.and_eq_true] at hok
      exact effect_overwrite h hs hop rfl hsound hok.1 hok.2
  | overwritten surplusPorts ports =>
      simp only [Operation.keepsReservations, Bool.and_eq_true, beq_iff_eq] at hok
      exact effect_overwritePorts h hs hop rfl hsound hok.1 hok.2

/-! ## Every step -/

theorem effect_next (h : w.Kept) (hs : s ∈ w.slots) (hop : op ∈ s.operations)
    (hok : op.keepsReservations w s ok = true) : Effect w s op (op.next w s ok) := by
  unfold Operation.next
  cases hwork : op.work with
  | changePlan plan stage => exact effect_changePlan h hs hop hwork hok
  | redeem codeType codeValue stage => exact effect_redeem h hs hwork hok
  | destroy stage => exact effect_destroy h hs hop hwork hok

theorem kept_turn (h : w.Kept) (hok : keepsReservations w (.turn id opId ok) = true)
    (hstep : w.turn id opId ok = some w') : w'.Kept := by
  simp only [SharedHost.turn] at hstep
  split at hstep
  · cases hstep
  rename_i s hfind
  split at hstep
  · cases hstep
  rename_i op hfindOp
  cases hstep
  simp only [keepsReservations, hfind, hfindOp, Option.all_some] at hok
  obtain ⟨hs, rfl⟩ := Keyed.mem_of_lookup hfind
  obtain ⟨hop, rfl⟩ := Keyed.mem_of_lookup hfindOp
  exact h.turn hs hop (effect_next h hs hop hok)

/-- A slot is rewritten without a change to what it has in the counters. -/
theorem SharedHost.Kept.rewrite {f : HostedSlot → HostedSlot} (h : w.Kept) (hs : s ∈ w.slots)
    (hid : (f s).id = s.id) (hslot : (f s).Kept w.host) (hreserved : (f s).reserved = s.reserved)
    (hceiling : (f s).ceiling = s.ceiling) :
    ({ w with slots := Keyed.modify HostedSlot.id s.id f w.slots } : SharedHost).Kept := by
  have hsame : ∀ a ∈ w.slots, a.id = s.id → a = s := fun a ha he =>
    Option.some.inj ((Keyed.lookup_of_mem h.nodup ha).symm.trans
      (he ▸ Keyed.lookup_of_mem h.nodup hs))
  have htotal := fun g : HostedSlot → Resources => Keyed.total_modify (f := f) (g := g) h.nodup hs
  refine ⟨?_, fun a ha => ?_, ?_, ?_, ?_, h.released⟩
  · have hids : (Keyed.modify HostedSlot.id s.id f w.slots).map HostedSlot.id
        = w.slots.map HostedSlot.id := by
      simp only [Keyed.modify, List.map_map]
      refine List.map_congr_left fun a ha => ?_
      simp only [Function.comp_apply]
      split
      · rename_i he
        rw [hsame a ha he, hid]
      · rfl
    exact hids ▸ h.nodup
  · obtain ⟨b, hb, rfl⟩ := Keyed.mem_modify.mp ha
    split
    · rename_i he
      rw [hsame b hb he]
      exact hslot
    · exact h.slots b hb
  · show w.host.used = _
    rw [htotal, hreserved, h.counters]
    abel
  · show (Keyed.total HostedSlot.ceiling _).cpu ≤ _
    rw [htotal, hceiling, sub_add_cancel]
    exact h.cpu
  · show (Keyed.total HostedSlot.ceiling _).memory ≤ _
    rw [htotal, hceiling, sub_add_cancel]
    exact h.memory

theorem kept_request {r : HostRequest} (h : w.Kept) (hstep : w.request id opId r = some w') :
    w'.Kept := by
  simp only [SharedHost.request] at hstep
  split at hstep
  · cases hstep
  rename_i s hfind
  split at hstep <;> cases hstep
  rename_i hadmitted
  obtain ⟨hfresh, hadmitted⟩ := hadmitted
  obtain ⟨hs, rfl⟩ := Keyed.mem_of_lookup hfind
  have hslot := h.slots s hs
  have hnone : (⟨opId, s.row, s.version, r.work⟩ : Operation).outstanding = 0 := by
    cases r <;> rfl
  have hholds : (⟨opId, s.row, s.version, r.work⟩ : Operation).holdsRow = false := by
    cases r <;> rfl
  have hids := Keyed.lookup_eq_none_iff.mp (Option.isNone_iff_eq_none.mp hfresh)
  refine h.rewrite (f := fun s' => { s' with
    operations := s'.operations ++ [⟨opId, s.row, s.version, r.work⟩] }) hs rfl ?_ ?_ ?_
  · refine ⟨?_, ?_, fun a ha => ?_, fun a ha b hb hrow hrow' => ?_⟩
    · exact Keyed.nodup_append_singleton hslot.nodup hids
    · simpa [HostedSlot.floor, hnone, add_assoc] using hslot.floor
    · rcases List.mem_append.mp ha with ha | ha
      · exact hslot.sound a ha
      · obtain rfl := List.mem_singleton.mp ha
        cases r with
        | changePlan plan => trivial
        | redeem codeType codeValue => trivial
        | destroy =>
            simp only [HostRequest.admitted, Bool.and_eq_true, bne_iff_ne] at hadmitted
            exact hadmitted.1
    · have hold : ∀ c ∈ s.operations ++ [⟨opId, s.row, s.version, r.work⟩],
          c.holdsRow = true → c ∈ s.operations := by
        intro c hc hrow
        rcases List.mem_append.mp hc with hc | hc
        · exact hc
        · rw [List.mem_singleton.mp hc, hholds] at hrow
          cases hrow
      exact hslot.single a (hold a ha hrow) b (hold b hb hrow') hrow hrow'
  · simp [HostedSlot.reserved, hnone]
  · simp [HostedSlot.ceiling, hnone]

theorem kept_setStatus {status : InstanceStatus} (h : w.Kept)
    (hstep : w.setStatus id status = some w') : w'.Kept := by
  simp only [SharedHost.setStatus] at hstep
  split at hstep
  · cases hstep
  rename_i s hfind
  split at hstep <;> cases hstep
  rename_i hallocated
  obtain ⟨hs, rfl⟩ := Keyed.mem_of_lookup hfind
  have hslot := h.slots s hs
  have hheld : (s.row.withStatus status).held = s.row.held := by
    have hafter : (s.row.withStatus status).status.allocated = true := hallocated.2
    rw [HostedInstance.held_of_allocated hafter, HostedInstance.held_of_allocated hallocated.1]
    rfl
  refine h.rewrite (f := fun s => { s with row := s.row.withStatus status }) hs rfl ?_
    (congrArg (· + _) hheld) (congrArg (· + _) hheld)
  refine ⟨hslot.nodup, ?_, fun a ha => ?_, hslot.single⟩
  · have hfloor := hslot.floor
    rw [HostedSlot.floor, ← hheld] at hfloor
    exact hfloor
  · refine (hslot.sound a ha).of_not_holdsRow (Bool.eq_false_iff.mpr fun hholds => ?_)
    exact InstanceStatus.ne_deleted_of_allocated hallocated.1 ((hslot.sound a ha).deleted hholds)

theorem selectAndReserveHostWithLock_eq {selection : HostSelection} {host host' : HostCapacity}
    {allocated : Resources} {p : Purchase}
    (h : selectAndReserveHostWithLock selection host allocated p = some host') :
    allocated.cpu + p.cpu ≤ host.cpuAllowanceMax.getD 0 ∧
      allocated.memory + p.memory ≤ host.memoryMax.getD 0 ∧
      host' = host.withUsed ⟨allocated.cpu + p.cpu, allocated.memory + p.memory,
        allocated.disk + p.disk, host.used.portCount + p.portCount⟩ := by
  simp only [selectAndReserveHostWithLock] at h
  split_ifs at h
  · rename_i hcpu hmemory _ _
    exact ⟨not_lt.mp (not_or.mp hcpu).2, not_lt.mp (not_or.mp hmemory).2,
      (Option.some.inj h).symm⟩
  · rename_i hcpu hmemory _ hports
    refine ⟨not_lt.mp (not_or.mp hcpu).2, not_lt.mp (not_or.mp hmemory).2, ?_⟩
    rw [Nat.eq_zero_of_not_pos hports]
    simpa using (Option.some.inj h).symm

/-- A purchase overwrites the counters with current sums, while nothing but ports
is outstanding. -/
theorem kept_purchase {p : Purchase} (h : w.Kept)
    (hok : keepsReservations w (.purchase p) = true) (hstep : w.purchase p = some w') :
    w'.Kept := by
  simp only [SharedHost.purchase] at hstep
  split at hstep <;> cases hstep
  rename_i host hfresh hselected
  obtain ⟨hcpu, hmemory, rfl⟩ := selectAndReserveHostWithLock_eq hselected
  simp only [keepsReservations, List.all_eq_true] at hok
  have honly : ∀ op ∈ w.operations,
      op.outstanding.cpu = 0 ∧ op.outstanding.memory = 0 ∧ op.outstanding.disk = 0 := fun op hop => by
    simpa [Resources.onlyPorts, and_assoc] using hok op hop
  have hrest := SharedHost.outstanding_induction (w := w)
    (P := fun r => r.cpu = 0 ∧ r.memory = 0 ∧ r.disk = 0) ⟨rfl, rfl, rfl⟩
    (fun a b ha hb => by simp [ha, hb])
    fun s hs op hop => honly op (SharedHost.mem_operations hs hop)
  have hcounters := h.counters_eq
  have hheld : p.row.held = ⟨p.cpu, p.memory, p.disk, p.portCount⟩ := rfl
  have hceilingCpu := h.cpu_eq fun op hop => (honly op hop).1.ge
  have hceilingMemory := h.memory_eq fun op hop => (honly op hop).2.1.ge
  have husedCpu := congrArg Resources.cpu hcounters
  have husedMemory := congrArg Resources.memory hcounters
  have husedDisk := congrArg Resources.disk hcounters
  simp only [Resources.cpu_add, Resources.memory_add, Resources.disk_add, hrest.1, hrest.2.1,
    hrest.2.2, add_zero] at husedCpu husedMemory husedDisk
  have hids := Keyed.lookup_eq_none_iff.mp hfresh
  refine ⟨?_, fun s hs => ?_, ?_, ?_, ?_, h.released⟩
  · exact Keyed.nodup_append_singleton h.nodup hids
  · refine HostedSlot.Kept.withUsed ?_
    rcases List.mem_append.mp hs with hs | hs
    · exact h.slots s hs
    · obtain rfl := List.mem_singleton.mp hs
      refine ⟨by simp, ?_, by simp, by simp⟩
      simpa [HostedSlot.floor] using p.row.held_nonneg
  · rw [Keyed.total_append, ← h.counters]
    show (⟨w.allocated.cpu + p.cpu, w.allocated.memory + p.memory, w.allocated.disk + p.disk,
      w.host.used.portCount + p.portCount⟩ : Resources) = w.host.used + (p.row.held + 0 + 0)
    rw [hheld, add_zero, add_zero, ← husedCpu, ← husedMemory, ← husedDisk]
    rfl
  · rw [Keyed.total_append]
    show (Keyed.total HostedSlot.ceiling w.slots).cpu + (p.row.held.cpu + 0 + 0)
      ≤ w.host.cpuAllowanceMax.getD 0 + 0
    rw [hceilingCpu, husedCpu, hheld]
    linarith
  · rw [Keyed.total_append]
    show (Keyed.total HostedSlot.ceiling w.slots).memory + (p.row.held.memory + 0 + 0)
      ≤ w.host.memoryMax.getD 0 + 0
    rw [hceilingMemory, husedMemory, hheld]
    linarith

theorem kept_sharedHostStep {e : SharedHostEvent} (h : w.Kept) (hok : keepsReservations w e = true)
    (hstep : sharedHostStep w e = some w') : w'.Kept := by
  cases e with
  | purchase p => exact kept_purchase h hok hstep
  | request id opId r => exact kept_request h hstep
  | turn id opId ok => exact kept_turn h hok hstep
  | setStatus id status => exact kept_setStatus h hstep

/-! ## Every run -/

/-- A host whose counters are the sum over its instances, within its limits, before
anything is in progress. -/
structure SharedHost.Start (w : SharedHost) : Prop where
  nodup : (w.slots.map HostedSlot.id).Nodup
  idle : ∀ s ∈ w.slots, s.operations = []
  counters : w.host.used = w.allocated
  cpu : w.allocated.cpu ≤ w.host.cpuAllowanceMax.getD 0 + w.granted.cpu
  memory : w.allocated.memory ≤ w.host.memoryMax.getD 0 + w.granted.memory
  released : w.refusedReleases = []

theorem SharedHost.Start.kept (h : w.Start) : w.Kept := by
  have hshares : Keyed.total HostedSlot.reserved w.slots = w.allocated ∧
      Keyed.total HostedSlot.ceiling w.slots = w.allocated :=
    ⟨Keyed.total_congr fun s hs => by simp [HostedSlot.reserved, h.idle s hs],
      Keyed.total_congr fun s hs => by simp [HostedSlot.ceiling, h.idle s hs]⟩
  refine ⟨h.nodup, fun s hs => ?_, h.counters.trans hshares.1.symm, ?_, ?_, h.released⟩
  · have hidle := h.idle s hs
    refine ⟨by simp [hidle], ?_, by simp [hidle], by simp [hidle]⟩
    simpa [HostedSlot.floor, hidle] using s.row.held_nonneg
  · rw [hshares.2]
    exact h.cpu
  · rw [hshares.2]
    exact h.memory

/-- In every interleaving of purchases, plan changes, deliveries and deletions whose
statements all keep the reservations, none is lost and no release is refused, and
purchases and plan changes do not exceed the limits of the host. -/
theorem host_counters {w₀ : SharedHost} (hstart : w₀.Start)
    (hrun : Machine.Reach sharedHostStep (keepsReservations · ·) w₀ w) : HostCounters w :=
  (hrun.invariant hstart.kept fun h hok hs => kept_sharedHostStep h hok hs).hostCounters

/-! ## Three runs -/

/-- A host for 100 per cent of CPU with one instance that has half of it. -/
def sampleShared : SharedHost where
  selection := { id := 10, userId := 1 }
  host :=
    { cpuAllowanceMax := some 100, memoryMax := some 4096, storageSize := some 100
      natPortStart := some 20000, natPortEnd := some 29999
      used := { cpu := 50, memory := 1024, disk := 10240, portCount := 10 } }
  slots :=
    [{ row := { id := 1, userId := 7, status := .running, cpu := 50, memory := 1024, disk := 10240
                portLimit := some 10 } }]

theorem sampleShared_start : sampleShared.Start :=
  ⟨by decide, by decide, by decide, by decide, by decide, rfl⟩

/-- The purchase of another instance, with a quarter of the CPU. -/
def samplePurchase (cpu : ℕ) : Purchase where
  id := 2
  userId := 8
  cpu := cpu
  memory := 512
  disk := 5120
  portLimit := 5

/-- A plan change and a purchase one after the other, a delivery to the instance that
was bought, and the deletion of the other during a plan change that fails. -/
theorem host_counters_sample :
    ∃ w, Machine.Reach sharedHostStep (keepsReservations · ·) sampleShared w ∧
      w.host.used = { cpu := 35, memory := 512, disk := 5120, portCount := 5 } ∧
      HostCounters w := by
  have hexec : (Machine.exec (Machine.guarded sharedHostStep keepsReservations) sampleShared
      [.request 1 1 (.changePlan ⟨60, 2048, 20480, 20⟩), .turn 1 1 true, .turn 1 1 true,
        .turn 1 1 true, .turn 1 1 true, .purchase (samplePurchase 25), .setStatus 2 .running,
        .request 2 1 (.redeem .cpu 10), .turn 2 1 true, .turn 2 1 true, .turn 2 1 true,
        .turn 2 1 true, .request 1 2 (.changePlan ⟨65, 2048, 20480, 20⟩), .turn 1 2 true,
        .turn 1 2 true, .request 1 3 .destroy, .turn 1 3 true, .turn 1 2 true, .turn 1 2 true,
        .turn 1 2 true, .turn 1 3 true, .turn 1 3 true, .turn 1 3 true, .turn 1 3 true,
        .turn 1 3 true, .turn 1 3 true]).map (·.host.used)
      = some { cpu := 35, memory := 512, disk := 5120, portCount := 5 } := by decide +kernel
  obtain ⟨w, hw, hused⟩ := Option.map_eq_some_iff.mp hexec
  have hrun := Machine.reach_of_exec_guarded hw
  exact ⟨w, hrun, hused, host_counters sampleShared_start hrun⟩

/-- A purchase between the reservation of a plan change and its row: the reservation
is lost, and the instances have 140 per cent of a CPU of which there are 100. -/
theorem purchase_loses_plan_change :
    ∃ w, Machine.Reach sharedHostStep Machine.free sampleShared w ∧ w.operations = [] ∧
      w.host.used.cpu = 100 ∧ w.allocated.cpu = 140 ∧ ¬ HostCounters w := by
  have hexec : (Machine.exec sharedHostStep sampleShared
      [.request 1 1 (.changePlan ⟨90, 1024, 10240, 10⟩), .turn 1 1 true, .turn 1 1 true,
        .purchase (samplePurchase 50), .turn 1 1 true, .turn 1 1 true]).map
          (fun w => (w.operations, w.host.used.cpu, w.allocated.cpu)) = some ([], 100, 140) := by
    decide +kernel
  obtain ⟨w, hw, hvalues⟩ := Option.map_eq_some_iff.mp hexec
  simp only [Prod.mk.injEq] at hvalues
  obtain ⟨hidle, hused, hallocated⟩ := hvalues
  refine ⟨w, Machine.reach_of_exec hw, hidle, hused, hallocated, fun h => ?_⟩
  have hsettled := congrArg Resources.cpu (h.settled hidle)
  rw [hused, hallocated] at hsettled
  cases hsettled

end

end Incudal
