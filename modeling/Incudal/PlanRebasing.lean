/-
# `PlanRebasing` — overage across changes of plan

The settled bytes of an instance count from the traffic that its plan includes,
so a change of plan counts them anew.  Traffic of a time that was billed by the
package is never billed afterwards, and what a plan has included stays covered
when a later plan includes less.

Both are one rule: a change leaves the smaller of what was unsettled and of the
new plan's own overage (`billableOverage_rebased`).  Along a sequence of changes
the smallest overage passed through is what remains, and a return to the first
plan does not bring back the rest (`overage_after_changes`).
-/
import Incudal.PlanChange
import Incudal.TrafficBilling

namespace Incudal

/-- What a plan sets of the traffic of an instance; the limit is that of the host. -/
structure TrafficPlan where
  billingMode : TrafficBillingMode
  monthlyTrafficLimit : Option ℕ
  unitPrice : ℕ := 0
deriving DecidableEq, Repr

/-- The overage that the plan has on so much traffic, as far as it is billed. -/
def TrafficPlan.overage (plan : TrafficPlan) (used : ℕ) : ℕ :=
  if plan.billingMode = .usage then used - plan.monthlyTrafficLimit.getD 0 else 0

namespace TrafficInstance

/-- The overage that can still be billed: only usage is. -/
def billableOverage (inst : TrafficInstance) : ℕ :=
  if inst.trafficBillingMode = .usage then inst.unsettledBytes else 0

/-- The traffic columns that a change of plan writes. -/
def rebased (now : Time) (inst : TrafficInstance) (plan : TrafficPlan) : TrafficInstance :=
  { inst with
      monthlyTrafficLimit := plan.monthlyTrafficLimit
      trafficStatus :=
        if plan.billingMode = .usage then .normal
        else calculateInstanceTrafficStatus inst.monthlyTrafficUsed plan.monthlyTrafficLimit
      trafficBillingMode := plan.billingMode
      trafficUnitPrice := plan.unitPrice
      trafficSettledBytes :=
        calculatePlanChangeSettledBytes inst plan.billingMode plan.monthlyTrafficLimit
      nextTrafficBillingAt :=
        if plan.billingMode = .usage then some (now + 60 * 60 * 1000) else none }

end TrafficInstance

section Rebasing

variable {inst : TrafficInstance} {plan : TrafficPlan} {plans : List TrafficPlan} {now : Time}

@[simp] theorem rebased_used :
    (inst.rebased now plan).monthlyTrafficUsed = inst.monthlyTrafficUsed := rfl

/-- A change leaves the smaller of what was unsettled and of the new plan's overage. -/
theorem billableOverage_rebased (now : Time) (inst : TrafficInstance) (plan : TrafficPlan) :
    (inst.rebased now plan).billableOverage
      = min inst.billableOverage (plan.overage inst.monthlyTrafficUsed) := by
  unfold TrafficInstance.billableOverage TrafficPlan.overage
  by_cases hnew : plan.billingMode = .usage
  · rw [if_pos hnew, if_pos (show (inst.rebased now plan).trafficBillingMode = .usage from hnew)]
    simp only [TrafficInstance.unsettledBytes, TrafficInstance.totalOverage,
      TrafficInstance.rebased, calculatePlanChangeSettledBytes, hnew]
    by_cases hold : inst.trafficBillingMode = .usage
    · -- both are usage: the bytes paid for are counted from the new allowance
      simp only [hold, ne_eq, not_true_eq_false, if_false, if_true]
      omega
    · -- the traffic of the package is behind the new counters
      simp only [hold, ne_eq, not_true_eq_false, not_false_eq_true, if_true, if_false]
      omega
  · rw [if_neg hnew, if_neg (show (inst.rebased now plan).trafficBillingMode ≠ .usage from hnew),
      Nat.min_zero]

/-- A sequence of changes leaves the smallest overage that it passes through. -/
theorem billableOverage_foldl (now : Time) (inst : TrafficInstance) (plans : List TrafficPlan) :
    (plans.foldl (·.rebased now) inst).billableOverage
      = (plans.map (·.overage inst.monthlyTrafficUsed)).foldl min inst.billableOverage := by
  induction plans generalizing inst with
  | nil => rfl
  | cons plan plans ih =>
      rw [List.foldl_cons, ih, billableOverage_rebased, rebased_used, List.map_cons,
        List.foldl_cons]

/-- A bound on the least overage of a sequence is a bound on each of them. -/
theorem bound_le_least {bound rest : ℕ} (overages : List ℕ) :
    bound ≤ overages.foldl min rest ↔ bound ≤ rest ∧ ∀ overage ∈ overages, bound ≤ overage := by
  induction overages generalizing rest with
  | nil => exact ⟨fun h => ⟨h, nofun⟩, And.left⟩
  | cons overage overages ih =>
      rw [List.foldl_cons, ih, le_min_iff, and_assoc, List.forall_mem_cons]

/-- What is unsettled after a change between usage plans, after one that involves
the package, and after a sequence of changes: there it is not below what it was
before them if and only if none of the plans has a smaller overage. -/
theorem overage_after_changes (now : Time) (inst : TrafficInstance) :
    (∀ plan : TrafficPlan, inst.trafficBillingMode = .usage → plan.billingMode = .usage →
      (inst.rebased now plan).billableOverage
        = inst.monthlyTrafficUsed - max (plan.monthlyTrafficLimit.getD 0)
            (inst.monthlyTrafficLimit.getD 0 + inst.trafficSettledBytes)) ∧
    (∀ plan : TrafficPlan, inst.trafficBillingMode = .package ∨ plan.billingMode = .package →
      (inst.rebased now plan).billableOverage = 0) ∧
    (∀ plan : TrafficPlan, (inst.rebased now plan).billableOverage
      ≤ plan.overage inst.monthlyTrafficUsed) ∧
    ∀ plans : List TrafficPlan,
      (plans.foldl (·.rebased now) inst).billableOverage
        = (plans.map (·.overage inst.monthlyTrafficUsed)).foldl min inst.billableOverage ∧
      (inst.billableOverage ≤ (plans.foldl (·.rebased now) inst).billableOverage ↔
        ∀ plan ∈ plans, inst.billableOverage ≤ plan.overage inst.monthlyTrafficUsed) := by
  refine ⟨fun plan hold hnew => ?_, fun plan hpackage => ?_, fun plan => ?_, fun plans => ?_⟩
  · rw [billableOverage_rebased, TrafficInstance.billableOverage, if_pos hold,
      TrafficPlan.overage, if_pos hnew, TrafficInstance.unsettledBytes,
      TrafficInstance.totalOverage]
    omega
  · rw [billableOverage_rebased]
    rcases hpackage with hold | hnew
    · rw [TrafficInstance.billableOverage, if_neg (by simp [hold]), Nat.zero_min]
    · rw [TrafficPlan.overage, if_neg (by simp [hnew]), Nat.min_zero]
  · rw [billableOverage_rebased]
    exact min_le_right _ _
  · refine ⟨billableOverage_foldl now inst plans, ?_⟩
    rw [billableOverage_foldl, bound_le_least, and_iff_right le_rfl]
    simp only [List.forall_mem_map]

end Rebasing

/-- Of 200 bytes 100 are included and 20 settled.  A plan that includes 150 and
the return to the first leave 50 of the 80 unsettled bytes; so the claim that a
return brings all of them back fails, and it fails through a package plan too. -/
theorem return_loses_overage :
    let inst : TrafficInstance :=
      { status := .running, monthlyTrafficLimit := some 100, monthlyTrafficUsed := 200
        trafficBillingMode := .usage, trafficSettledBytes := 20 }
    let first : TrafficPlan := ⟨.usage, some 100, 0⟩
    inst.billableOverage = 80 ∧
      ([⟨.usage, some 150, 0⟩, first].foldl (·.rebased 0) inst).billableOverage = 50 ∧
      ([⟨.package, some 100, 0⟩, first].foldl (·.rebased 0) inst).billableOverage = 0 := by
  decide

end Incudal
