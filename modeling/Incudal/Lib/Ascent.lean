/-
# `Lib.Ascent` — how far a sequence of readings climbs

`ascent x ys` adds up the climbs of the sequence `x, ys`: every step upwards
counts by its height, a step downwards counts nothing.  `peak x ys` is the
highest reading.  The climb reaches at least from the start to the peak
(`peak_le_add_ascent`), and exactly that far if and only if the sequence has
no valley, that is no reading below both an earlier and a later one
(`add_ascent_le_peak_iff`).
-/
import Mathlib.Algebra.Order.Sub.Basic
import Mathlib.Data.List.Triplewise
import Mathlib.Order.Lattice

namespace Ascent

section Order

variable {α : Type*} [LinearOrder α]

/-- The highest reading of the sequence that starts at `x` and goes on with `ys`. -/
def peak : α → List α → α
  | x, [] => x
  | x, y :: ys => max x (peak y ys)

/-- No reading lies below both an earlier and a later one. -/
def NoValley (ys : List α) : Prop :=
  ys.Triplewise fun a b c => min a c ≤ b

theorem le_peak (x : α) (ys : List α) : x ≤ peak x ys := by
  cases ys with
  | nil => exact le_rfl
  | cons y ys => exact le_max_left _ _

theorem le_peak_of_mem {x y : α} {ys : List α} (h : y ∈ x :: ys) : y ≤ peak x ys := by
  induction ys generalizing x with
  | nil => simp_all [peak]
  | cons z zs ih =>
      rcases List.mem_cons.mp h with rfl | h
      · exact le_max_left _ _
      · exact (ih h).trans (le_max_right _ _)

/-- The highest reading is one of the readings. -/
theorem peak_mem (x : α) (ys : List α) : peak x ys ∈ x :: ys := by
  induction ys generalizing x with
  | nil => exact List.mem_singleton.mpr rfl
  | cons y ys ih =>
      rcases max_choice x (peak y ys) with h | h
      · rw [peak, h]
        exact List.mem_cons_self
      · rw [peak, h]
        exact List.mem_cons_of_mem _ (ih y)

theorem peak_le {x b : α} {ys : List α} (h : ∀ y ∈ x :: ys, y ≤ b) : peak x ys ≤ b := by
  induction ys generalizing x with
  | nil => exact h x List.mem_cons_self
  | cons y ys ih =>
      exact max_le (h x List.mem_cons_self)
        (ih fun z hz => h z (List.mem_cons_of_mem _ hz))

/-- A descending sequence has no valley. -/
theorem noValley_of_descending {ys : List α} (h : ys.Pairwise (· ≥ ·)) : NoValley ys := by
  induction ys with
  | nil => exact List.Triplewise.nil
  | cons y ys ih =>
      rw [List.pairwise_cons] at h
      exact .cons (h.2.imp fun hbc => (min_le_right _ _).trans hbc) (ih h.2)

/-- After a step upwards a valley can only be further on. -/
theorem noValley_cons_of_le {x y : α} {ys : List α} (h : x ≤ y) :
    NoValley (x :: y :: ys) ↔ NoValley (y :: ys) := by
  simp only [NoValley, List.triplewise_cons, List.pairwise_cons]
  constructor
  · rintro ⟨-, hrest⟩
    exact hrest
  · rintro ⟨hy, hrest⟩
    exact ⟨⟨fun z _ => (min_le_left _ _).trans h,
      hy.imp fun hbc => (min_le_min_right _ h).trans hbc⟩, hy, hrest⟩

/-- After a step downwards nothing may climb again. -/
theorem noValley_cons_of_lt {x y : α} {ys : List α} (h : y < x) :
    NoValley (x :: y :: ys) ↔ (y :: ys).Pairwise (· ≥ ·) := by
  constructor
  · intro hnv
    simp only [NoValley, List.triplewise_cons, List.pairwise_cons] at hnv
    obtain ⟨⟨hy, hx⟩, -⟩ := hnv
    have hle : ∀ z ∈ ys, z ≤ y := fun z hz =>
      (min_le_iff.mp (hy z hz)).resolve_left (not_le.mpr h)
    refine List.pairwise_cons.mpr ⟨hle, hx.imp_of_mem fun _ hc hmin => ?_⟩
    exact (min_le_iff.mp hmin).resolve_left fun hxb =>
      absurd (hxb.trans (hle _ ‹_›)) (not_le.mpr h)
  · intro hpw
    refine noValley_of_descending (List.pairwise_cons.mpr ⟨fun z hz => ?_, hpw⟩)
    rcases List.mem_cons.mp hz with rfl | hz
    · exact h.le
    · exact (List.rel_of_pairwise_cons hpw hz).trans h.le

end Order

section Climb

variable {α : Type*} [AddCommMonoid α] [LinearOrder α] [Sub α]

/-- The climbs of the sequence that starts at `x` and goes on with `ys`. -/
def ascent : α → List α → α
  | _, [] => 0
  | x, y :: ys => (y - x) + ascent y ys

variable [CanonicallyOrderedAdd α] [OrderedSub α]

/-- Nothing climbs exactly when each reading is at most the ones before it. -/
theorem ascent_eq_zero_iff (x : α) (ys : List α) :
    ascent x ys = 0 ↔ (x :: ys).Pairwise (· ≥ ·) := by
  induction ys generalizing x with
  | nil => simp [ascent]
  | cons y ys ih =>
      rw [ascent, add_eq_zero, tsub_eq_zero_iff_le, ih, List.pairwise_cons (a := x)]
      refine ⟨fun ⟨hyx, hpw⟩ => ⟨fun z hz => ?_, hpw⟩,
        fun ⟨hx, hpw⟩ => ⟨hx y List.mem_cons_self, hpw⟩⟩
      rcases List.mem_cons.mp hz with rfl | hz
      · exact hyx
      · exact (List.rel_of_pairwise_cons hpw hz).trans hyx

variable [IsOrderedCancelAddMonoid α]

/-- The climb reaches from the start to the peak. -/
theorem peak_le_add_ascent (x : α) (ys : List α) : peak x ys ≤ x + ascent x ys := by
  induction ys generalizing x with
  | nil => simp [peak, ascent]
  | cons y ys ih =>
      refine max_le le_self_add ?_
      calc peak y ys ≤ y + ascent y ys := ih y
        _ ≤ (x + (y - x)) + ascent y ys := by gcongr; exact le_add_tsub
        _ = x + ascent x (y :: ys) := by rw [ascent, add_assoc]

/-- The climb stops at the peak exactly when there is no valley. -/
theorem add_ascent_le_peak_iff (x : α) (ys : List α) :
    x + ascent x ys ≤ peak x ys ↔ NoValley (x :: ys) := by
  induction ys generalizing x with
  | nil => simp [ascent, peak, NoValley]
  | cons y ys ih =>
      rw [ascent, peak]
      rcases le_or_gt x y with h | h
      · rw [noValley_cons_of_le h, ← ih, ← add_assoc, add_tsub_cancel_of_le h,
          max_eq_right (h.trans (le_peak y ys))]
      · rw [noValley_cons_of_lt h, ← ascent_eq_zero_iff, tsub_eq_zero_of_le h.le, zero_add]
        constructor
        · intro hle
          have hpeak : peak y ys ≤ y + ascent y ys := peak_le_add_ascent y ys
          have hlt : y + ascent y ys < x + ascent y ys := by gcongr
          rcases le_max_iff.mp hle with hx | hp
          · exact nonpos_iff_eq_zero.mp (add_le_iff_nonpos_right x |>.mp hx)
          · exact absurd (hp.trans hpeak) (not_le.mpr hlt)
        · intro h0
          rw [h0, add_zero]
          exact le_max_left _ _

end Climb

end Ascent
