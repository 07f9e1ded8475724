/-
# `Lib.Tally` — counters in a map

A key that is not in the map counts nothing, and a counter that would fall to
zero leaves the map.  Such a map is determined by its counts (`Tidy.get_eq`), so
a program that increments for every start and decrements for every end keeps no
key that nothing is under way for.
-/
import Incudal.Lib.InsertionMap

namespace Tally

variable {α κ : Type*} [DecidableEq κ]

def count (k : κ) (m : List (κ × ℕ)) : ℕ := (InsertionMap.get k m).getD 0

def increment (k : κ) (m : List (κ × ℕ)) : List (κ × ℕ) := InsertionMap.set k (count k m + 1) m

def decrement (k : κ) (m : List (κ × ℕ)) : List (κ × ℕ) :=
  if 0 < count k m - 1 then InsertionMap.set k (count k m - 1) m else Keyed.erase Prod.fst k m

/-- No key twice, and none that counts nothing. -/
structure Tidy (m : List (κ × ℕ)) : Prop where
  nodup : (m.map Prod.fst).Nodup
  pos : ∀ e ∈ m, 0 < e.2

variable {k k' : κ} {m : List (κ × ℕ)} {n : ℕ} {key : α → κ} {xs : List α}

theorem count_set : count k' (InsertionMap.set k n m) = if k' = k then n else count k' m := by
  rw [count, InsertionMap.get_set]
  split
  · rfl
  · rfl

theorem count_increment :
    count k' (increment k m) = count k' m + if k' = k then 1 else 0 := by
  rw [increment, count_set]
  split
  · rename_i hk
    rw [hk]
  · rfl

theorem count_decrement (h : (m.map Prod.fst).Nodup) :
    count k' (decrement k m) = count k' m - if k' = k then 1 else 0 := by
  unfold decrement
  split
  · rw [count_set]
    split
    · rename_i hk
      rw [hk]
    · rfl
  · rename_i hlast
    rw [count, InsertionMap.get_erase h]
    split
    · rename_i hk
      rw [hk]
      exact (Nat.eq_zero_of_not_pos hlast).symm
    · rfl

omit [DecidableEq κ] in
theorem Tidy.nil : Tidy ([] : List (κ × ℕ)) :=
  ⟨List.nodup_nil, fun _ he => absurd he List.not_mem_nil⟩

theorem Tidy.set (h : Tidy m) (hn : 0 < n) : Tidy (InsertionMap.set k n m) where
  nodup := InsertionMap.nodup_set h.nodup
  pos e he := by
    rcases InsertionMap.mem_of_mem_set he with he | rfl
    · exact h.pos e he
    · exact hn

theorem Tidy.increment (h : Tidy m) : Tidy (increment k m) := h.set (Nat.succ_pos _)

theorem Tidy.decrement (h : Tidy m) : Tidy (decrement k m) := by
  unfold Tally.decrement
  split
  · rename_i hpos
    exact h.set hpos
  · exact ⟨Keyed.nodup_erase h.nodup, fun e he => h.pos e (Keyed.mem_erase.mp he).1⟩

/-- What a tidy map holds is its counts. -/
theorem Tidy.get_eq (h : Tidy m) :
    InsertionMap.get k m = if count k m = 0 then none else some (count k m) := by
  cases hget : InsertionMap.get k m with
  | none => simp [count, hget]
  | some n =>
      have hpos := h.pos _ ((InsertionMap.mem_iff_get h.nodup).mpr hget)
      simp [count, hget, Nat.ne_of_gt hpos]

/-- Counting the elements of a list under their keys. -/
theorem count_foldl_increment :
    count k (xs.foldl (fun m x => increment (key x) m) m) =
      count k m + xs.countP fun x => decide (key x = k) := by
  induction xs generalizing m with
  | nil => rfl
  | cons x xs ih =>
      rw [List.foldl_cons, ih, count_increment, List.countP_cons]
      by_cases hk : k = key x
      · simp only [hk, if_true, decide_true]
        omega
      · have hk' : ¬key x = k := fun h => hk h.symm
        simp [hk, hk']

omit [DecidableEq κ] in
/-- Replacing an element moves it between what is counted and what is not. -/
theorem countP_set_add {p : α → Bool} {j : ℕ} {a b : α} (h : xs[j]? = some a) :
    (xs.set j b).countP p + (if p a then 1 else 0) = xs.countP p + if p b then 1 else 0 := by
  obtain ⟨hj, rfl⟩ := List.getElem?_eq_some_iff.mp h
  rw [List.countP_set hj]
  have hpos (ha : p xs[j] = true) : 0 < xs.countP p :=
    List.countP_pos_iff.mpr ⟨_, List.getElem_mem hj, ha⟩
  split
  · have := hpos ‹_›
    omega
  · omega

end Tally
