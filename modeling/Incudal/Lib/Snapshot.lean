/-
# `Lib.Snapshot` — transactions that read a snapshot, and the first of two writers wins

A database at the level of snapshots lets a transaction read the rows as they
were when it began, and aborts it when it writes a row that another one has
written and committed since.  Each row carries the time of its last write
(`Stamps`).  A snapshot is `Fresh` if every row that was not written after it is
still as the snapshot has it; a new snapshot is, and commits keep it
(`Fresh.commit`).  What a transaction without conflicts writes is therefore what
it has read (`Fresh.read_eq`).
-/
import Mathlib.Data.List.Basic

namespace Snapshot

variable {σ κ : Type*} {ν : κ → Type*} [DecidableEq κ]

/-- When each row was last written, in numbers of commits. -/
structure Stamps (κ : Type*) where
  writtenAt : κ → ℕ
  clock : ℕ

/-- A commit writes some rows. -/
def Stamps.record (stamps : Stamps κ) (keys : List κ) : Stamps κ where
  writtenAt := fun k => if k ∈ keys then stamps.clock + 1 else stamps.writtenAt k
  clock := stamps.clock + 1

/-- One of the rows was written after the snapshot was taken. -/
def Stamps.conflicts (stamps : Stamps κ) (takenAt : ℕ) (keys : List κ) : Bool :=
  keys.any fun k => decide (takenAt < stamps.writtenAt k)

/-- The rows that were not written since the snapshot are as it has them. -/
structure Fresh (read : σ → (k : κ) → ν k) (stamps : Stamps κ) (takenAt : ℕ) (now snapshot : σ) :
    Prop where
  taken : takenAt ≤ stamps.clock
  same : ∀ k, stamps.writtenAt k ≤ takenAt → read now k = read snapshot k

variable {read : σ → (k : κ) → ν k} {stamps : Stamps κ} {takenAt : ℕ} {now now' snapshot : σ}
  {keys : List κ} {k : κ}

omit [DecidableEq κ] in
theorem Fresh.begin (read : σ → (k : κ) → ν k) (stamps : Stamps κ) (now : σ) :
    Fresh read stamps stamps.clock now now :=
  ⟨Nat.le_refl _, fun _ _ => rfl⟩

/-- A commit leaves the rows that it does not write. -/
theorem Fresh.commit (h : Fresh read stamps takenAt now snapshot)
    (hkeep : ∀ k, k ∉ keys → read now' k = read now k) :
    Fresh read (stamps.record keys) takenAt now' snapshot where
  taken := Nat.le_succ_of_le h.taken
  same := by
    intro k hk
    by_cases hmem : k ∈ keys
    · have hlate : (stamps.record keys).writtenAt k = stamps.clock + 1 := if_pos hmem
      rw [hlate] at hk
      exact absurd (Nat.le_trans hk h.taken) (Nat.not_succ_le_self _)
    · have hold : (stamps.record keys).writtenAt k = stamps.writtenAt k := if_neg hmem
      rw [hold] at hk
      exact (hkeep k hmem).trans (h.same k hk)

omit [DecidableEq κ] in
/-- Without a conflict the rows are as they were read. -/
theorem Fresh.read_eq (h : Fresh read stamps takenAt now snapshot)
    (hfree : stamps.conflicts takenAt keys = false) (hk : k ∈ keys) :
    read now k = read snapshot k := by
  refine h.same k (Nat.not_lt.mp fun hlate => ?_)
  have hconflict : stamps.conflicts takenAt keys = true :=
    List.any_eq_true.mpr ⟨k, hk, decide_eq_true hlate⟩
  rw [hfree] at hconflict
  cases hconflict

end Snapshot
