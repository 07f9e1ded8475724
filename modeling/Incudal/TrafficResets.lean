/-
# `TrafficResets` — what a monthly reset does to unsettled overage

A reset charges nothing and writes no bill, so overage that is not yet settled
survives it in two ways only: it stands on a pending bill, or the counters of
the instance still show it afterwards.  The single-instance reset leaves
usage-billed instances out; the host reset and the reset of all do not, and
lose what no bill records (`resetKeepsOverage_iff`).
-/
import Incudal.TrafficRuns

namespace Incudal

/-- No unsettled overage is lost: what a usage-billed instance has of it before
the reset is on a pending bill or still counted afterwards. -/
def ResetKeepsOverage (path : ResetPath) (w : TrafficWorld) : Prop :=
  ∀ inst ∈ w.db.instances, inst.trafficBillingMode = .usage →
    ∀ inst' ∈ (resetMonthlyTraffic path w.db).findInstance inst.id,
      (inst.unsettledBytes : ℤ) ≤ w.openBytes inst.id + inst'.unsettledBytes

section Resets

variable {tz : Time} {w w' : TrafficWorld} {e : TrafficBillingEvent} {path : ResetPath}

theorem instanceIds_billingEffect {k : ℕ} {now : Time} {payable : Option TrafficBillingRecord}
    {db db' : TrafficBillingDb} (h : BillingEffect tz k now payable db db') :
    db'.instances.map TrafficInstance.id = db.instances.map TrafficInstance.id := by
  cases h with
  | idle hf instances => rw [instances, Keyed.map_key_modify hf.id]
  | bill hf found noDebt fresh owner bytes paid instances =>
      rw [instances, Keyed.map_key_modify hf.id]
  | pay hf found chosen mem debt owner hg instances => rw [instances, Keyed.map_key_modify hf.id]

/-- No step adds, drops or renames an instance. -/
theorem instanceIds_step (hs : trafficBillingStep tz w e = some w') :
    w'.db.instances.map TrafficInstance.id = w.db.instances.map TrafficInstance.id := by
  cases e with
  | accrue instanceId delta => cases hs; exact Keyed.map_key_modify fun _ => rfl
  | settle instanceId now trigger => cases hs; exact instanceIds_billingEffect settleInstance_effect
  | payPending instanceId userId now =>
      simp only [trafficBillingStep] at hs
      split at hs
      · rename_i db amount hpay
        cases hs
        exact instanceIds_billingEffect (payPendingTrafficBill_effect hpay)
      · cases hs
  | reset path => cases hs; exact instanceIds_reset path w.db
  | setBalance userId balance => cases hs; rfl
  | setStatus instanceId status suspendReason => cases hs; exact Keyed.map_key_modify fun _ => rfl

theorem instanceIds_run {w₀ : TrafficWorld} (hstart : w₀.TrafficStart)
    (hrun : Machine.Reach (trafficBillingStep tz) Machine.free w₀ w) :
    (w.db.instances.map TrafficInstance.id).Nodup :=
  hrun.invariant (P := fun w => (w.db.instances.map TrafficInstance.id).Nodup)
    hstart.instanceIds fun h _ hs => (instanceIds_step hs).symm ▸ h

/-- The row of an instance after a reset. -/
theorem findInstance_reset {inst : TrafficInstance}
    (hids : (w.db.instances.map TrafficInstance.id).Nodup) (hinst : inst ∈ w.db.instances) :
    (resetMonthlyTraffic path w.db).findInstance inst.id
      = some (if path.reaches inst then inst.resetTraffic else inst) := by
  have hmem : (if path.reaches inst then inst.resetTraffic else inst)
      ∈ (resetMonthlyTraffic path w.db).instances := List.mem_map.mpr ⟨inst, hinst, rfl⟩
  have hid : (if path.reaches inst then inst.resetTraffic else inst).id = inst.id := by
    split_ifs <;> rfl
  have hfind := Keyed.lookup_of_mem ((instanceIds_reset path w.db).symm ▸ hids) hmem
  rw [hid] at hfind
  exact hfind

@[simp] theorem resetTraffic_unsettledBytes (inst : TrafficInstance) :
    inst.resetTraffic.unsettledBytes = 0 := by
  simp [TrafficInstance.unsettledBytes, TrafficInstance.totalOverage, TrafficInstance.resetTraffic]

/-- The single-instance reset does not reach a usage-billed instance. -/
theorem single_not_reaches {inst : TrafficInstance} (h : inst.trafficBillingMode = .usage)
    (k : ℕ) : (ResetPath.single k).reaches inst = false := by
  simp [ResetPath.reaches, h]

/-- In every reachable state a reset keeps the unsettled overage exactly when it
is the single-instance reset, or every usage-billed instance it reaches has its
unsettled overage on a pending bill. -/
theorem resetKeepsOverage_iff (tz : Time) {w₀ w : TrafficWorld} (hstart : w₀.TrafficStart)
    (hrun : Machine.Reach (trafficBillingStep tz) Machine.free w₀ w) (path : ResetPath) :
    ResetKeepsOverage path w ↔
      (∃ k, path = .single k) ∨
        ∀ inst ∈ w.db.instances, inst.trafficBillingMode = .usage → path.reaches inst = true →
          (inst.unsettledBytes : ℤ) ≤ w.openBytes inst.id := by
  have hids := instanceIds_run hstart hrun
  constructor
  · intro hkeeps
    refine .inr fun inst hinst husage hreach => ?_
    have := hkeeps inst hinst husage inst.resetTraffic
      (by rw [findInstance_reset hids hinst, if_pos hreach]; rfl)
    simpa using this
  · intro hcond inst hinst husage inst' hfind
    rw [findInstance_reset hids hinst, Option.mem_some_iff] at hfind
    subst hfind
    have hopen := openBytes_nonneg (w := w) inst.id
    by_cases hreach : path.reaches inst = true
    · rcases hcond with ⟨k, rfl⟩ | hcond
      · rw [single_not_reaches husage] at hreach
        cases hreach
      · rw [if_pos hreach, resetTraffic_unsettledBytes]
        have := hcond inst hinst husage hreach
        omega
    · rw [if_neg hreach]
      omega

/-- A quarter of a GiB is used: too little for a bill at either trigger. -/
theorem reach_quarter : ∃ w, Machine.Reach (trafficBillingStep 0) Machine.free usageStart w ∧
    w.db.instances = [usageInstance.accrue (GIB / 4)] ∧ w.db.records = [] := by
  refine ⟨_, .tail .refl trivial (i := .accrue 1 (GIB / 4)) rfl, ?_, rfl⟩
  decide +kernel

/-- The host's reset then loses the quarter, the single-instance reset keeps it. -/
theorem hostReset_loses_overage :
    ∃ w, Machine.Reach (trafficBillingStep 0) Machine.free usageStart w ∧
      ¬ ResetKeepsOverage (.hosts [1]) w := by
  obtain ⟨w, hrun, hinstances, hrecords⟩ := reach_quarter
  refine ⟨w, hrun, fun hkeeps => ?_⟩
  have hmem : usageInstance.accrue (GIB / 4) ∈ w.db.instances := by simp [hinstances]
  have hfind : (usageInstance.accrue (GIB / 4)).resetTraffic
      ∈ (resetMonthlyTraffic (.hosts [1]) w.db).findInstance (usageInstance.accrue (GIB / 4)).id := by
    simp only [TrafficBillingDb.findInstance, resetMonthlyTraffic, hinstances]
    decide +kernel
  have := hkeeps _ hmem rfl _ hfind
  rw [TrafficWorld.openBytes, hrecords, Keyed.total_nil] at this
  exact absurd this (by decide +kernel)

theorem singleReset_keeps_overage :
    ∃ w, Machine.Reach (trafficBillingStep 0) Machine.free usageStart w ∧
      ResetKeepsOverage (.single 1) w := by
  obtain ⟨w, hrun, -, -⟩ := reach_quarter
  exact ⟨w, hrun, (resetKeepsOverage_iff 0 usageStart_start hrun (.single 1)).mpr (.inl ⟨1, rfl⟩)⟩

end Resets

end Incudal
