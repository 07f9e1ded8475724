/-
# `Lib.Fifo` — drawing an amount from a queue of capacities

A queue of capacities is drawn down from the front: `drain r as` is what is
left of each capacity after `r` has been taken, `draw r as` is what was taken
from each.  The three facts the rest of the development uses:

    the drawn and the rest make up the total    (`sum_drain_add_sum_draw`)
    the total taken is min r (total)            (`sum_draw`)
    drawing R and then r is drawing R + r       (`drain_drain`)

With a weight on each entry, `weigh` sums weight times entry; a drawing of `r`
lowers the weighed remainder by the weighed draw (`weigh_drain`).
-/
import Mathlib.Algebra.Order.Ring.Defs
import Mathlib.Algebra.Order.Group.MinMax
import Mathlib.Algebra.Order.BigOperators.Group.List
import Mathlib.Tactic.Abel
import Mathlib.Tactic.Linarith
import Mathlib.Tactic.Ring

namespace Fifo

section Queue

variable {α : Type*} [AddCommGroup α] [LinearOrder α]

/-- What is left of each capacity after `r` has been drawn from the front. -/
def drain : α → List α → List α
  | _, [] => []
  | r, a :: as => (a - min a r) :: drain (r - min a r) as

/-- What has been drawn from each capacity. -/
def draw : α → List α → List α
  | _, [] => []
  | r, a :: as => min a r :: draw (r - min a r) as

@[simp] theorem length_drain (r : α) (as : List α) : (drain r as).length = as.length := by
  induction as generalizing r with
  | nil => rfl
  | cons a as ih => simp [drain, ih]

@[simp] theorem length_draw (r : α) (as : List α) : (draw r as).length = as.length := by
  induction as generalizing r with
  | nil => rfl
  | cons a as ih => simp [draw, ih]

/-- What is left and what is taken make up the queue. -/
theorem sum_drain_add_sum_draw (r : α) (as : List α) :
    (drain r as).sum + (draw r as).sum = as.sum := by
  induction as generalizing r with
  | nil => simp [drain, draw]
  | cons a as ih =>
      simp only [drain, draw, List.sum_cons]
      rw [← ih (r - min a r)]
      abel

/-- Nothing drawn leaves the queue as it is. -/
theorem drain_zero {as : List α} (has : ∀ a ∈ as, 0 ≤ a) : drain 0 as = as := by
  induction as with
  | nil => rfl
  | cons a as ih =>
      have ha : min a 0 = 0 := min_eq_right (has a List.mem_cons_self)
      simp only [drain, ha, sub_zero]
      rw [ih fun c hc => has c (List.mem_cons_of_mem _ hc)]

variable [IsOrderedAddMonoid α]

theorem drain_nonneg {r : α} {as : List α} (hr : 0 ≤ r) (has : ∀ a ∈ as, 0 ≤ a) :
    ∀ b ∈ drain r as, 0 ≤ b := by
  induction as generalizing r with
  | nil => simp [drain]
  | cons a as ih =>
      intro b hb
      rcases List.mem_cons.mp hb with rfl | hb
      · exact sub_nonneg.mpr (min_le_left a r)
      · exact ih (sub_nonneg.mpr (min_le_right a r))
          (fun c hc => has c (List.mem_cons_of_mem _ hc)) b hb

/-- The draw takes `r` as long as the queue holds it, and the whole queue beyond. -/
theorem sum_draw {r : α} {as : List α} (hr : 0 ≤ r) (has : ∀ a ∈ as, 0 ≤ a) :
    (draw r as).sum = min r as.sum := by
  induction as generalizing r with
  | nil => simp [draw, hr]
  | cons a as ih =>
      have hrest : ∀ c ∈ as, 0 ≤ c := fun c hc => has c (List.mem_cons_of_mem _ hc)
      have hsum : 0 ≤ as.sum := List.sum_nonneg hrest
      simp only [draw, List.sum_cons]
      rw [ih (sub_nonneg.mpr (min_le_right a r)) hrest]
      rcases le_total a r with h | h
      · rw [min_eq_left h, ← min_add_add_left, add_sub_cancel]
      · rw [min_eq_right h, sub_self, min_eq_left hsum, add_zero,
          min_eq_left (h.trans (le_add_of_nonneg_right hsum))]

/-- Drawing `R` and then `r` is drawing `R + r`. -/
theorem drain_drain {R r : α} {as : List α} (hR : 0 ≤ R) (hr : 0 ≤ r)
    (has : ∀ a ∈ as, 0 ≤ a) : drain r (drain R as) = drain (R + r) as := by
  induction as generalizing R r with
  | nil => rfl
  | cons a as ih =>
      have hrest : ∀ c ∈ as, 0 ≤ c := fun c hc => has c (List.mem_cons_of_mem _ hc)
      simp only [drain]
      rcases le_total a R with h | h
      · -- the first capacity is gone before `r` is drawn
        have hRr : a ≤ R + r := h.trans (le_add_of_nonneg_right hr)
        rw [min_eq_left h, min_eq_left hRr]
        simp only [sub_self, min_eq_left hr, sub_zero]
        rw [ih (sub_nonneg.mpr h) hr hrest, sub_add_eq_add_sub]
      · rw [min_eq_right h, sub_self, drain_zero hrest]
        have hmin : min a (R + r) = R + min (a - R) r := by
          rw [← min_add_add_left, add_sub_cancel]
        rw [hmin]
        congr 1
        · abel
        · congr 1; abel

end Queue

section Weights

variable {α : Type*} [CommRing α]

/-- The entries of `as`, each times its weight, summed. -/
def weigh (ws as : List α) : α := (List.zipWith (· * ·) ws as).sum

@[simp] theorem weigh_nil_left (as : List α) : weigh [] as = 0 := by simp [weigh]

@[simp] theorem weigh_nil_right (ws : List α) : weigh ws [] = 0 := by simp [weigh]

@[simp] theorem weigh_cons (w a : α) (ws as : List α) :
    weigh (w :: ws) (a :: as) = w * a + weigh ws as := by simp [weigh]

/-- With weight one everywhere the sum is that of the entries. -/
theorem weigh_one {β : Type*} (bs : List β) (f : β → α) :
    weigh (bs.map fun _ => 1) (bs.map f) = (bs.map f).sum := by
  induction bs with
  | nil => simp
  | cons b bs ih => rw [List.map_cons, List.map_cons, weigh_cons, ih, one_mul, List.sum_cons]

/-- Weights and their complements to one split the plain sum. -/
theorem weigh_compl (ws as : List α) (h : ws.length = as.length) :
    weigh ws as + weigh (ws.map (1 - ·)) as = as.sum := by
  induction ws generalizing as with
  | nil => simp_all [List.eq_nil_of_length_eq_zero h.symm]
  | cons w ws ih =>
      cases as with
      | nil => simp at h
      | cons a as =>
          have := ih as (by simpa using h)
          simp only [List.map_cons, weigh_cons, List.sum_cons, ← this]
          ring

variable [LinearOrder α]

/-- A drawing lowers the weighed remainder by the weighed draw. -/
theorem weigh_drain (ws : List α) (r : α) (as : List α) :
    weigh ws (drain r as) = weigh ws as - weigh ws (draw r as) := by
  induction ws generalizing r as with
  | nil => simp
  | cons w ws ih =>
      cases as with
      | nil => simp [drain, draw]
      | cons a as =>
          simp only [drain, draw, weigh_cons, ih]
          ring

variable [IsStrictOrderedRing α]

theorem weigh_nonneg {ws as : List α} (hw : ∀ w ∈ ws, 0 ≤ w) (ha : ∀ a ∈ as, 0 ≤ a) :
    0 ≤ weigh ws as := by
  induction ws generalizing as with
  | nil => simp
  | cons w ws ih =>
      cases as with
      | nil => simp
      | cons a as =>
          rw [weigh_cons]
          have h1 := mul_nonneg (hw w List.mem_cons_self) (ha a List.mem_cons_self)
          have h2 := ih (fun c hc => hw c (List.mem_cons_of_mem _ hc))
            (fun c hc => ha c (List.mem_cons_of_mem _ hc))
          linarith

end Weights

end Fifo
