/-
# `Lib.Binary64` — natural numbers as doubles

A double holds 53 significant bits.  `toDouble` takes a natural number to the
nearest double, a tie to the one whose last bit is even.  `shortest` is the
natural number with the fewest significant decimal digits that names a double,
and among those the nearest to it: the number that is shown for a double.

Up to `2 ^ 53` both leave a number alone (`shortest_toDouble_of_lt`); a number
of 64 bits is shown by a number of 66 bits at most.  Above, the error is
`2 ^ -53` of the number at most (`toDouble_mul_le`), so that a double below one
times a number stays below the number (`toDouble_mul_lt`).
-/
import Mathlib.Data.Nat.Log
import Mathlib.Tactic.Linarith
import Mathlib.Tactic.Ring

namespace Binary64

/-- The nearest double, ties to even. -/
def toDouble (n : ℕ) : ℕ :=
  let unit := 2 ^ (n.log2 - 52)
  let q := n / unit
  let r := n % unit
  if 2 * r < unit ∨ (2 * r = unit ∧ q % 2 = 0) then q * unit else (q + 1) * unit

/-- The multiple of `10 ^ j` that names the double `x`, if there is one: of two,
the nearer, or else the one whose last digit is even. -/
def shortestAt (x j : ℕ) : Option ℕ :=
  let unit := 10 ^ j
  let low := x / unit * unit
  let high := low + unit
  if toDouble low = x then
    if toDouble high = x ∧ (high - x < x - low ∨ (high - x = x - low ∧ x / unit % 2 = 1)) then
      some high
    else some low
  else if toDouble high = x then some high
  else none

/-- The search from the highest power of ten down. -/
def shortestFrom (x : ℕ) : ℕ → ℕ
  | 0 => x
  | j + 1 => (shortestAt x (j + 1)).getD (shortestFrom x j)

def shortest (x : ℕ) : ℕ := shortestFrom x (Nat.toDigits 10 x).length

variable {n m x j k : ℕ}

theorem toDouble_of_lt (h : n < 2 ^ 53) : toDouble n = n := by
  have hlog : n.log2 - 52 = 0 := by
    rcases Nat.eq_zero_or_pos n with rfl | hpos
    · rfl
    · have := (Nat.log2_lt hpos.ne').mpr h
      omega
  simp only [toDouble, hlog, pow_zero, Nat.mod_one, Nat.div_one, Nat.mul_zero]
  simp

/-- A large number keeps its order of magnitude. -/
theorem toDouble_bounds (h : 2 ^ 53 ≤ n) : 2 ^ n.log2 ≤ toDouble n ∧ toDouble n ≤ 2 ^ (n.log2 + 1) := by
  have hne : n ≠ 0 := by
    rintro rfl
    exact absurd h (by norm_num)
  have hlog : 53 ≤ n.log2 := (Nat.le_log2 hne).mpr h
  obtain ⟨e, he⟩ : ∃ e, n.log2 = e + 52 := ⟨n.log2 - 52, by omega⟩
  have hlow : 2 ^ 52 * 2 ^ e ≤ n := by
    rw [← pow_add, Nat.add_comm, ← he]
    exact Nat.log2_self_le hne
  have hhigh : n < 2 ^ 53 * 2 ^ e := by
    rw [← pow_add, show 53 + e = n.log2 + 1 by omega]
    exact Nat.lt_log2_self
  have hpos : 0 < 2 ^ e := Nat.two_pow_pos e
  have hq : 2 ^ 52 ≤ n / 2 ^ e := (Nat.le_div_iff_mul_le hpos).mpr hlow
  have hq' : n / 2 ^ e < 2 ^ 53 := (Nat.div_lt_iff_lt_mul hpos).mpr hhigh
  have hpow : 2 ^ n.log2 = 2 ^ 52 * 2 ^ e := by rw [he, pow_add, Nat.mul_comm]
  have hpow' : 2 ^ (n.log2 + 1) = 2 ^ 53 * 2 ^ e := by rw [pow_succ, hpow]; ring
  rw [hpow, hpow']
  simp only [toDouble, he, Nat.add_sub_cancel]
  split
  · exact ⟨Nat.mul_le_mul_right _ hq, Nat.mul_le_mul_right _ hq'.le⟩
  · exact ⟨Nat.mul_le_mul_right _ (hq.trans (Nat.le_succ _)), Nat.mul_le_mul_right _ hq'⟩

/-- Only a number itself rounds to a double below `2 ^ 53`. -/
theorem eq_of_toDouble_lt (h : toDouble m < 2 ^ 53) : toDouble m = m := by
  by_contra hne
  have hm : 2 ^ 53 ≤ m := Nat.le_of_not_lt fun hlt => hne (toDouble_of_lt hlt)
  have hlog : 53 ≤ m.log2 := by
    refine (Nat.le_log2 ?_).mpr hm
    rintro rfl
    exact absurd hm (by norm_num)
  have := (toDouble_bounds hm).1
  have hpow : 2 ^ 53 ≤ 2 ^ m.log2 := Nat.pow_le_pow_right (by norm_num) hlog
  omega

theorem lt_two_mul_toDouble (h : m ≠ 0) : m < 2 * toDouble m := by
  by_cases hm : m < 2 ^ 53
  · rw [toDouble_of_lt hm]
    omega
  · have := (toDouble_bounds (Nat.le_of_not_lt hm)).1
    have hlt := @Nat.lt_log2_self m
    rw [pow_succ] at hlt
    omega

theorem toDouble_le (h : n < 2 ^ 64) : toDouble n ≤ 2 ^ 64 := by
  by_cases hn : n < 2 ^ 53
  · rw [toDouble_of_lt hn]
    exact h.le
  · have hne : n ≠ 0 := by
      rintro rfl
      exact hn (by norm_num)
    have hlog := (Nat.log2_lt hne).mpr h
    exact (toDouble_bounds (Nat.le_of_not_lt hn)).2.trans
      (Nat.pow_le_pow_right (by norm_num) (by omega))

/-- Half a unit in the last place. -/
theorem two_mul_toDouble_le : 2 * toDouble n ≤ 2 * n + 2 ^ (n.log2 - 52) := by
  have hdiv : 2 ^ (n.log2 - 52) * (n / 2 ^ (n.log2 - 52)) + n % 2 ^ (n.log2 - 52) = n :=
    Nat.div_add_mod _ _
  simp only [toDouble]
  generalize 2 ^ (n.log2 - 52) = unit at hdiv ⊢
  rw [Nat.mul_comm] at hdiv
  split
  · omega
  · rename_i hup
    have hhalf : unit ≤ 2 * (n % unit) := by omega
    rw [Nat.add_mul, Nat.one_mul]
    omega

/-- The relative error is `2 ^ -53` at most. -/
theorem toDouble_mul_le : toDouble n * 2 ^ 53 ≤ n * (2 ^ 53 + 1) := by
  rcases Nat.lt_or_ge n (2 ^ 53) with hlt | hge
  · rw [toDouble_of_lt hlt]
    exact Nat.mul_le_mul_left n (Nat.le_succ _)
  · have hne : n ≠ 0 := by
      rintro rfl
      exact absurd hge (by norm_num)
    have hlog : 53 ≤ n.log2 := (Nat.le_log2 hne).mpr hge
    have hunit : 2 ^ (n.log2 - 52) * 2 ^ 52 ≤ n := by
      rw [← pow_add, Nat.sub_add_cancel (by omega)]
      exact Nat.log2_self_le hne
    have herror := two_mul_toDouble_le (n := n)
    linarith

/-- Scaling by a power of two is exact. -/
theorem toDouble_mul_two_pow (h : k < 2 ^ 53) : toDouble (k * 2 ^ j) = k * 2 ^ j := by
  rcases Nat.eq_zero_or_pos k with rfl | hpos
  · rw [Nat.zero_mul]
    exact toDouble_of_lt (by norm_num)
  · have hlog : (k * 2 ^ j).log2 = k.log2 + j := by
      refine (Nat.log2_eq_iff (by positivity)).mpr ⟨?_, ?_⟩
      · rw [pow_add]
        exact Nat.mul_le_mul_right _ (Nat.log2_self_le hpos.ne')
      · rw [show k.log2 + j + 1 = (k.log2 + 1) + j by omega, pow_add]
        exact Nat.mul_lt_mul_of_pos_right Nat.lt_log2_self (Nat.two_pow_pos j)
    have hk : k.log2 < 53 := (Nat.log2_lt hpos.ne').mpr h
    have hdvd : 2 ^ (k.log2 + j - 52) ∣ k * 2 ^ j :=
      Dvd.dvd.mul_left (pow_dvd_pow 2 (by omega)) k
    have hunit : 0 < 2 ^ (k.log2 + j - 52) := Nat.two_pow_pos _
    simp only [toDouble, hlog, Nat.mod_eq_zero_of_dvd hdvd, Nat.mul_zero, hunit, true_or, if_true]
    exact Nat.div_mul_cancel hdvd

/-- A double below one, `k / 2 ^ m`, times a number: the product rounds below the number. -/
theorem toDouble_mul_lt (h : k < 2 ^ 53) (hone : k < 2 ^ m) (hn : 0 < n) :
    toDouble (k * n) < n * 2 ^ m := by
  have hscaled : k * (2 ^ 53 + 1) < 2 ^ m * 2 ^ 53 := by
    rcases Nat.le_or_le m 53 with hm | hm
    · have hle : 2 ^ m ≤ 2 ^ 53 := Nat.pow_le_pow_right (by norm_num) hm
      have : k + 1 ≤ 2 ^ m := hone
      nlinarith
    · have hle : 2 ^ 53 ≤ 2 ^ m := Nat.pow_le_pow_right (by norm_num) hm
      have : k + 1 ≤ 2 ^ 53 := h
      nlinarith
  have hround := toDouble_mul_le (n := k * n)
  have hmul : n * (k * (2 ^ 53 + 1)) < n * (2 ^ m * 2 ^ 53) := Nat.mul_lt_mul_of_pos_left hscaled hn
  have : toDouble (k * n) * 2 ^ 53 < n * 2 ^ m * 2 ^ 53 := by
    calc toDouble (k * n) * 2 ^ 53 ≤ k * n * (2 ^ 53 + 1) := hround
      _ = n * (k * (2 ^ 53 + 1)) := by ring
      _ < n * (2 ^ m * 2 ^ 53) := hmul
      _ = n * 2 ^ m * 2 ^ 53 := by ring
  exact Nat.lt_of_mul_lt_mul_right this

theorem toDouble_shortestAt (h : shortestAt x j = some m) : toDouble m = x := by
  simp only [shortestAt] at h
  split at h
  · rename_i hlow
    split at h
    · rename_i hhigh
      cases h
      exact hhigh.1
    · cases h
      exact hlow
  · split at h
    · rename_i hhigh
      cases h
      exact hhigh
    · cases h

/-- What is shown for a double is of its size. -/
theorem shortestFrom_le : shortestFrom x j ≤ 2 * x := by
  induction j with
  | zero =>
      rw [shortestFrom]
      omega
  | succ j ih =>
      simp only [shortestFrom]
      cases h : shortestAt x (j + 1) with
      | none => exact ih
      | some m =>
          rw [Option.getD_some, ← toDouble_shortestAt h]
          rcases Nat.eq_zero_or_pos m with rfl | hpos
          · exact Nat.zero_le _
          · exact (lt_two_mul_toDouble hpos.ne').le

theorem shortest_toDouble_lt (h : n < 2 ^ 64) : shortest (toDouble n) < 10 ^ 21 := by
  have hle : shortest (toDouble n) ≤ 2 * toDouble n := shortestFrom_le
  have := toDouble_le h
  omega

theorem shortestFrom_of_lt (h : x < 2 ^ 53) : shortestFrom x j = x := by
  induction j with
  | zero => rfl
  | succ j ih =>
      simp only [shortestFrom]
      cases hs : shortestAt x (j + 1) with
      | none => exact ih
      | some m =>
          have hm := toDouble_shortestAt hs
          have := eq_of_toDouble_lt (hm.symm ▸ h)
          exact this.symm.trans hm

theorem shortest_toDouble_of_lt (h : n < 2 ^ 53) : shortest (toDouble n) = n := by
  rw [toDouble_of_lt h, shortest, shortestFrom_of_lt h]

end Binary64
