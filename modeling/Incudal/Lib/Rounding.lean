/-
# `Lib.Rounding` — rounding to the nearest integer, ties away from zero

The rounding that fixed-point columns and printed decimals share: the nearest
integer, and at an exact half the one farther from zero.  Mathlib's `round`
sends a half upwards, so the two agree on the non-negative half line
(`halfAway_of_nonneg`) and the other half line is its mirror image
(`halfAway_neg`).

What the users of this file need is how the rounding meets whole numbers: it
leaves them alone, it is monotone, it commutes with adding one as long as no
sign is crossed, and `halfAway x ≤ n` is a strict inequality about `x`.
-/
import Mathlib.Algebra.Order.Round
import Mathlib.Data.Rat.Floor
import Mathlib.Tactic.Linarith
import Mathlib.Tactic.NormNum
import Mathlib.Tactic.Push

namespace Rounding

variable {α : Type*} [Field α] [LinearOrder α] [IsStrictOrderedRing α] [FloorRing α]

/-- The nearest integer; an exact half goes away from zero. -/
def halfAway (x : α) : ℤ := if 0 ≤ x then ⌊x + 1 / 2⌋ else -⌊-x + 1 / 2⌋

theorem halfAway_of_nonneg {x : α} (h : 0 ≤ x) : halfAway x = round x := by
  rw [halfAway, if_pos h, round_eq]

theorem halfAway_of_neg {x : α} (h : x < 0) : halfAway x = -round (-x) := by
  rw [halfAway, if_neg (not_le.mpr h), round_eq]

theorem halfAway_neg (x : α) : halfAway (-x) = -halfAway x := by
  rcases lt_trichotomy x 0 with h | rfl | h
  · rw [halfAway_of_neg h, halfAway_of_nonneg (by linarith), neg_neg]
  · rw [neg_zero, halfAway_of_nonneg le_rfl, round_zero, neg_zero]
  · rw [halfAway_of_nonneg h.le, halfAway_of_neg (by linarith), neg_neg]

@[simp] theorem halfAway_intCast (n : ℤ) : halfAway (n : α) = n := by
  rcases le_or_gt 0 (n : α) with h | h
  · rw [halfAway_of_nonneg h, round_intCast]
  · rw [halfAway_of_neg h, ← Int.cast_neg, round_intCast, neg_neg]

@[simp] theorem halfAway_zero : halfAway (0 : α) = 0 := by
  simpa using halfAway_intCast (α := α) 0

theorem halfAway_nonneg {x : α} (h : 0 ≤ x) : 0 ≤ halfAway x := by
  rw [halfAway_of_nonneg h, round_eq]
  exact Int.floor_nonneg.mpr (by linarith)

theorem halfAway_nonpos {x : α} (h : x ≤ 0) : halfAway x ≤ 0 := by
  have := halfAway_nonneg (α := α) (x := -x) (by linarith)
  rw [halfAway_neg] at this
  omega

/-- A rounding is at most a half away. -/
theorem abs_halfAway_sub_le (x : α) : |(halfAway x : α) - x| ≤ 1 / 2 := by
  rcases le_or_gt 0 x with h | h
  · rw [halfAway_of_nonneg h, abs_sub_comm]
    exact abs_sub_round x
  · rw [halfAway_of_neg h]
    have hround := abs_sub_round (-x)
    rwa [show -x - (round (-x) : α) = ((-round (-x) : ℤ) : α) - x by push_cast; ring] at hround

/-- Against a non-negative bound the rounding is a strict inequality. -/
theorem halfAway_le_iff {x : α} {n : ℤ} (hn : 0 ≤ n) :
    halfAway x ≤ n ↔ x < n + 1 / 2 := by
  have hn' : (0 : α) ≤ n := by exact_mod_cast hn
  rcases le_or_gt 0 x with h | h
  · rw [halfAway_of_nonneg h, round_eq, ← Int.lt_add_one_iff, Int.floor_lt]
    push_cast
    constructor <;> intro h' <;> linarith
  · constructor
    · intro _; linarith
    · intro _; exact (halfAway_nonpos h.le).trans hn

/-- Rounding up to a positive whole number takes at least the half below it. -/
theorem lt_halfAway_iff {x : α} {n : ℤ} (hn : 0 ≤ n) :
    n < halfAway x ↔ (n : α) + 1 / 2 ≤ x := by
  rw [← not_le, halfAway_le_iff hn, not_lt]

/-- A value at most a whole number rounds to at most it. -/
theorem halfAway_le_of_le {x : α} {n : ℤ} (hn : 0 ≤ n) (h : x ≤ n) : halfAway x ≤ n :=
  (halfAway_le_iff hn).mpr (by linarith)

theorem halfAway_mono {x y : α} (h : x ≤ y) : halfAway x ≤ halfAway y := by
  rcases le_or_gt 0 y with hy | hy
  · have h2 : y < halfAway y + 1 / 2 := (halfAway_le_iff (halfAway_nonneg hy)).mp le_rfl
    exact (halfAway_le_iff (halfAway_nonneg hy)).mpr (by linarith)
  · have h2 : -x < halfAway (-x) + 1 / 2 :=
      (halfAway_le_iff (halfAway_nonneg (by linarith))).mp le_rfl
    have h3 : halfAway (-y) ≤ halfAway (-x) :=
      (halfAway_le_iff (halfAway_nonneg (by linarith))).mpr (by linarith)
    rw [halfAway_neg, halfAway_neg] at h3
    omega

/-- A whole number passes through the rounding when neither side is negative. -/
theorem halfAway_add_int {x : α} {n : ℤ} (hx : 0 ≤ x) (hxn : 0 ≤ x + n) :
    halfAway (x + n) = halfAway x + n := by
  rw [halfAway_of_nonneg hx, halfAway_of_nonneg hxn, round_add_intCast]

/-- The smaller of a value and a whole number rounds to the smaller rounding. -/
theorem halfAway_min_int {x : α} {n : ℤ} :
    halfAway (min x (n : α)) = min (halfAway x) n := by
  rcases le_total x n with h | h
  · rw [min_eq_left h, min_eq_left]
    simpa using halfAway_mono h
  · rw [min_eq_right h, halfAway_intCast, min_eq_right]
    simpa using halfAway_mono h

/-- Taking `x` from a whole number and rounding is taking the rounding of `x`,
unless `x` lies half-way between two whole numbers. -/
theorem halfAway_int_sub {x : α} {n : ℤ} (hx : 0 ≤ x) (hxn : x ≤ n)
    (hhalf : (halfAway x : α) - x ≠ 1 / 2) :
    halfAway ((n : α) - x) = n - halfAway x := by
  have hup : x < halfAway x + 1 / 2 := (halfAway_le_iff (halfAway_nonneg hx)).mp le_rfl
  have hlo : (halfAway x : α) - 1 / 2 ≤ x := by
    rcases eq_or_lt_of_le (halfAway_nonneg hx) with h0 | h0
    · rw [← h0]; push_cast; linarith
    · have h1 := (lt_halfAway_iff (x := x) (n := halfAway x - 1) (by omega)).mp (by omega)
      push_cast at h1
      linarith
  have hlo' : (halfAway x : α) - 1 / 2 < x := lt_of_le_of_ne hlo (fun h => hhalf (by linarith))
  have hle : halfAway x ≤ n := halfAway_le_of_le (by exact_mod_cast hx.trans hxn) hxn
  apply le_antisymm
  · refine (halfAway_le_iff (by omega)).mpr ?_
    push_cast
    linarith
  · rcases eq_or_lt_of_le hle with h | h
    · rw [h, sub_self]
      exact halfAway_nonneg (by linarith)
    · have h2 : n - halfAway x - 1 < halfAway ((n : α) - x) :=
        (lt_halfAway_iff (by omega)).mpr (by push_cast; linarith)
      omega

/-- At an exact half both roundings go up, and only there do they miss the whole
number together. -/
theorem halfAway_int_sub_iff {x : α} {n : ℤ} (hx : 0 ≤ x) (hxn : x ≤ n) :
    halfAway ((n : α) - x) = n - halfAway x ↔ (halfAway x : α) - x ≠ 1 / 2 := by
  constructor
  · intro heq hhalf
    have hle : halfAway x ≤ n := by
      have hlt : (halfAway x : α) < n + 1 := by linarith
      exact Int.lt_add_one_iff.mp (by exact_mod_cast hlt)
    have hup : n - halfAway x < halfAway ((n : α) - x) :=
      (lt_halfAway_iff (by omega)).mpr (by push_cast; linarith)
    omega
  · exact halfAway_int_sub hx hxn

/-- The rounding adds a half exactly where the fraction is a half. -/
theorem halfAway_sub_self_iff {x : α} (hx : 0 ≤ x) :
    (halfAway x : α) - x = 1 / 2 ↔ Int.fract x = 1 / 2 := by
  constructor
  · intro h
    refine Int.fract_eq_iff.mpr ⟨by norm_num, by norm_num, halfAway x - 1, ?_⟩
    push_cast
    linarith
  · intro h
    have hfloor : x + 1 / 2 = ((⌊x⌋ + 1 : ℤ) : α) := by
      have := Int.floor_add_fract x
      push_cast
      linarith
    rw [halfAway_of_nonneg hx, round_eq, hfloor, Int.floor_intCast, ← hfloor]
    ring

end Rounding
