/-
# `Lib.AddressBlock` — ranges of addresses with a common prefix

Addresses are the integers from `0` below `2 ^ w`.  A block is the range of all
addresses with the same first `length` bits: it starts at a multiple of its size.
A block falls into `2 ^ (p - length)` blocks of a longer prefix `p`, numbered from
zero (`child`); each of them lies in it and starts at a multiple of its own
size.
-/
import Mathlib.Algebra.Order.Ring.Int
import Mathlib.Data.Int.Basic
import Mathlib.Tactic.Linarith
import Mathlib.Tactic.Positivity
import Mathlib.Tactic.Ring

structure AddressBlock (w : ℕ) where
  start : ℤ
  length : ℕ
  length_le : length ≤ w
  start_nonneg : 0 ≤ start
  aligned : (2 : ℤ) ^ (w - length) ∣ start
  fits : start + 2 ^ (w - length) ≤ 2 ^ w

namespace AddressBlock

variable {w : ℕ} (b : AddressBlock w)

def size : ℤ := 2 ^ (w - b.length)

/-- The last address. -/
def last : ℤ := b.start + b.size - 1

instance : Membership ℤ (AddressBlock w) := ⟨fun b n => b.start ≤ n ∧ n ≤ b.last⟩

variable {b} {n i : ℤ} {p : ℕ}

theorem size_pos : 0 < b.size := by
  rw [size]
  positivity

theorem four_le_size (h : b.length + 2 ≤ w) : 4 ≤ b.size := by
  obtain ⟨k, hk⟩ : ∃ k, w - b.length = k + 2 := ⟨w - b.length - 2, by omega⟩
  have : (0 : ℤ) < 2 ^ k := by positivity
  rw [size, hk, pow_add]
  linarith

theorem size_le_two (h : w ≤ b.length + 1) : b.size ≤ 2 := by
  have hk : w - b.length ≤ 1 := by omega
  rw [size]
  calc (2 : ℤ) ^ (w - b.length) ≤ 2 ^ 1 := pow_le_pow_right₀ (by norm_num) hk
    _ = 2 := by norm_num

/-- An address of a block is an address. -/
theorem bounds_of_mem (h : n ∈ b) : 0 ≤ n ∧ n < 2 ^ w := by
  have hfits := b.fits
  have hlast : n ≤ b.start + b.size - 1 := h.2
  rw [size] at hlast
  exact ⟨b.start_nonneg.trans h.1, by linarith⟩

/-- The block around an address: its first `p` bits, and any others. -/
def around (n : ℤ) (p : ℕ) (hp : p ≤ w) (hn : 0 ≤ n) (hn' : n < 2 ^ w) : AddressBlock w where
  start := n / 2 ^ (w - p) * 2 ^ (w - p)
  length := p
  length_le := hp
  start_nonneg := Int.mul_nonneg (Int.ediv_nonneg hn (by positivity)) (by positivity)
  aligned := Dvd.intro_left _ rfl
  fits := by
    have hpow : (2 : ℤ) ^ w = 2 ^ p * 2 ^ (w - p) := by rw [← pow_add, Nat.add_sub_cancel' hp]
    have hpos : (0 : ℤ) < 2 ^ (w - p) := by positivity
    have hq : n / 2 ^ (w - p) < 2 ^ p := Int.ediv_lt_of_lt_mul hpos (hpow ▸ hn')
    calc n / 2 ^ (w - p) * 2 ^ (w - p) + 2 ^ (w - p)
        = (n / 2 ^ (w - p) + 1) * 2 ^ (w - p) := by ring
      _ ≤ 2 ^ p * 2 ^ (w - p) := Int.mul_le_mul_of_nonneg_right hq hpos.le
      _ = 2 ^ w := hpow.symm

/-- The `i`th block of a longer prefix. -/
def child (b : AddressBlock w) (p : ℕ) (i : ℤ) (hp : b.length ≤ p) (hp' : p ≤ w) (hi : 0 ≤ i)
    (hi' : i < 2 ^ (p - b.length)) : AddressBlock w where
  start := b.start + i * 2 ^ (w - p)
  length := p
  length_le := hp'
  start_nonneg := Int.add_nonneg b.start_nonneg (Int.mul_nonneg hi (by positivity))
  aligned := by
    have hdvd : (2 : ℤ) ^ (w - p) ∣ 2 ^ (w - b.length) := pow_dvd_pow 2 (by omega)
    exact Int.dvd_add (hdvd.trans b.aligned) (Dvd.intro_left i rfl)
  fits := by
    have hpow : (2 : ℤ) ^ (w - b.length) = 2 ^ (p - b.length) * 2 ^ (w - p) := by
      rw [← pow_add]
      congr 1
      omega
    have hstep : (i + 1) * 2 ^ (w - p) ≤ (2 : ℤ) ^ (p - b.length) * 2 ^ (w - p) :=
      Int.mul_le_mul_of_nonneg_right hi' (by positivity)
    have hfits := b.fits
    rw [hpow] at hfits
    linarith

variable {hp : b.length ≤ p} {hp' : p ≤ w} {hi : 0 ≤ i} {hi' : i < 2 ^ (p - b.length)}

theorem size_eq_mul_child (hp : b.length ≤ p) (hp' : p ≤ w) :
    b.size = 2 ^ (p - b.length) * 2 ^ (w - p) := by
  rw [size, ← pow_add]
  congr 1
  omega

theorem child_last_le : (b.child p i hp hp' hi hi').last ≤ b.last := by
  have hstep : (i + 1) * 2 ^ (w - p) ≤ (2 : ℤ) ^ (p - b.length) * 2 ^ (w - p) :=
    Int.mul_le_mul_of_nonneg_right hi' (by positivity)
  have hsize := size_eq_mul_child hp hp'
  show b.start + i * 2 ^ (w - p) + 2 ^ (w - p) - 1 ≤ b.start + b.size - 1
  linarith

end AddressBlock
