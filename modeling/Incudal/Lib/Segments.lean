/-
# `Lib.Segments` — weights laid end to end

A list with weights divides a half line from `base` on: the first entry has the
segment of its weight, the next one the segment after it, and so on.
`Falls w base draw xs x` says that `draw` lies in the segment of `x`.  A loop
over the list that adds up the weights is followed by the two rules
`falls_cons_of_lt` and `falls_cons_of_le`.
-/
import Mathlib.Algebra.BigOperators.Group.List.Basic
import Mathlib.Algebra.Order.Monoid.Canonical.Defs

namespace Segments

variable {ι α : Type*} [AddCommMonoid α] [LinearOrder α]

/-- The segment of `x` among those of `xs`, which begin at `base`, has `draw` in it. -/
def Falls (w : ι → α) (base draw : α) (xs : List ι) (x : ι) : Prop :=
  ∃ before after, xs = before ++ x :: after ∧ base + (before.map w).sum ≤ draw ∧
    draw < base + (before.map w).sum + w x

variable {w : ι → α} {base draw : α} {x y : ι} {xs : List ι}

theorem Falls.mem (h : Falls w base draw xs x) : x ∈ xs := by
  obtain ⟨before, after, rfl, -, -⟩ := h
  exact List.mem_append_right _ List.mem_cons_self

theorem not_falls_nil : ¬Falls w base draw [] x := by
  rintro ⟨before, after, hsplit, -, -⟩
  exact absurd hsplit.symm (List.append_ne_nil_of_right_ne_nil _ (List.cons_ne_nil _ _))

/-- In the first segment. -/
theorem falls_cons_of_lt [CanonicallyOrderedAdd α] (hbase : base ≤ draw) (h : draw < base + w y) :
    Falls w base draw (y :: xs) x ↔ x = y := by
  constructor
  · rintro ⟨before, after, hsplit, hle, -⟩
    cases before with
    | nil => exact (List.cons.inj hsplit).1.symm
    | cons z before =>
      obtain ⟨rfl, -⟩ := List.cons.inj hsplit
      rw [List.map_cons, List.sum_cons, ← add_assoc] at hle
      exact absurd (h.trans_le (le_self_add.trans hle)) (lt_irrefl _)
  · rintro rfl
    refine ⟨[], xs, rfl, ?_, ?_⟩
    · rwa [List.map_nil, List.sum_nil, add_zero]
    · rwa [List.map_nil, List.sum_nil, add_zero]

/-- Past the first segment. -/
theorem falls_cons_of_le (h : base + w y ≤ draw) :
    Falls w base draw (y :: xs) x ↔ Falls w (base + w y) draw xs x := by
  constructor
  · rintro ⟨before, after, hsplit, hle, hlt⟩
    cases before with
    | nil =>
      obtain ⟨rfl, -⟩ := List.cons.inj hsplit
      rw [List.map_nil, List.sum_nil, add_zero] at hlt
      exact absurd (hlt.trans_le h) (lt_irrefl _)
    | cons z before =>
      obtain ⟨rfl, hrest⟩ := List.cons.inj hsplit
      rw [List.map_cons, List.sum_cons, ← add_assoc] at hle hlt
      exact ⟨before, after, hrest, hle, hlt⟩
  · rintro ⟨before, after, rfl, hle, hlt⟩
    refine ⟨y :: before, after, rfl, ?_, ?_⟩
    · rwa [List.map_cons, List.sum_cons, ← add_assoc]
    · rwa [List.map_cons, List.sum_cons, ← add_assoc]

end Segments
