/-
# `Lib.InsertionMap` — maps that keep the order of insertion

A map is the list of its entries, no key twice, in the order in which the keys
were first set; setting a key again replaces its value where it stands.  What a
loop that sets one key per element leaves is described by `mem_foldl_set`; a
loop that collects the elements of each key (`groupBy`) by `get_groupBy`.
-/
import Incudal.Lib.Keyed
import Mathlib.Data.List.Induction

namespace InsertionMap

variable {α κ β : Type*} [DecidableEq κ]

def get (k : κ) (m : List (κ × β)) : Option β := (Keyed.lookup Prod.fst k m).map Prod.snd

def set (k : κ) (v : β) (m : List (κ × β)) : List (κ × β) :=
  if (get k m).isSome then Keyed.modify Prod.fst k (fun _ => (k, v)) m else m ++ [(k, v)]

/-- The elements of a list under their keys. -/
def groupBy (key : α → κ) (xs : List α) : List (κ × List α) :=
  xs.foldl (fun m x => set (key x) ((get (key x) m).getD [] ++ [x]) m) []

variable {k k' : κ} {v : β} {m : List (κ × β)} {xs : List α} {key : α → κ} {val : α → β}

@[simp] theorem get_nil : get k ([] : List (κ × β)) = none := rfl

theorem get_eq_none_iff : get k m = none ↔ ∀ e ∈ m, e.1 ≠ k := by
  rw [get, Option.map_eq_none_iff, Keyed.lookup_eq_none_iff]

omit [DecidableEq κ] in
/-- Setting a key that is there keeps the key. -/
theorem key_replace (r : κ × β) (_ : r.1 = k) : ((fun _ => (k, v)) r : κ × β).1 = k := rfl

theorem get_set : get k' (set k v m) = if k' = k then some v else get k' m := by
  unfold set
  split
  · rename_i hk
    obtain ⟨u, hu⟩ := Option.isSome_iff_exists.mp hk
    rw [get, Keyed.lookup_modify key_replace]
    by_cases hkk : k' = k
    · obtain ⟨e, he, -⟩ := Option.map_eq_some_iff.mp hu
      simp [hkk, he]
    · simp [hkk, get]
  · rename_i hk
    have hnone : get k m = none := Option.not_isSome_iff_eq_none.mp hk
    have hfresh : ∀ e ∈ m, e.1 ≠ ((k, v) : κ × β).1 := get_eq_none_iff.mp hnone
    rw [get, Keyed.lookup_append_singleton hfresh]
    by_cases hkk : k' = k
    · simp [hkk]
    · simp [hkk, Ne.symm hkk, get]

theorem length_set : (set k v m).length = if (get k m).isSome then m.length else m.length + 1 := by
  unfold set
  split
  · exact List.length_map _
  · exact List.length_append

/-- What is left once a key is dropped. -/
theorem get_erase (h : (m.map Prod.fst).Nodup) :
    get k' (Keyed.erase Prod.fst k m) = if k' = k then none else get k' m := by
  rw [get, Keyed.erase, Keyed.lookup_filter h]
  split
  · rename_i hk
    cases hlookup : Keyed.lookup Prod.fst k' m with
    | none => rfl
    | some e =>
        obtain ⟨-, he⟩ := Keyed.mem_of_lookup hlookup
        simp [he, hk]
  · rename_i hk
    cases hlookup : Keyed.lookup Prod.fst k' m with
    | none => simp [get, hlookup]
    | some e =>
        obtain ⟨-, he⟩ := Keyed.mem_of_lookup hlookup
        simp [get, hlookup, he, hk, Option.filter]

theorem mem_of_mem_set {e : κ × β} (h : e ∈ set k v m) : e ∈ m ∨ e = (k, v) := by
  unfold set at h
  split at h
  · obtain ⟨r, hr, rfl⟩ := Keyed.mem_modify.mp h
    split
    · exact .inr rfl
    · exact .inl hr
  · exact (List.mem_append.mp h).imp_right List.mem_singleton.mp

theorem nodup_set (h : (m.map Prod.fst).Nodup) : ((set k v m).map Prod.fst).Nodup := by
  unfold set
  split
  · rwa [Keyed.map_key_modify_of key_replace]
  · rename_i hk
    exact Keyed.nodup_append_singleton h
      (get_eq_none_iff.mp (Option.not_isSome_iff_eq_none.mp hk))

theorem mem_iff_get (h : (m.map Prod.fst).Nodup) : (k, v) ∈ m ↔ get k m = some v := by
  constructor
  · intro hmem
    have hlookup : Keyed.lookup Prod.fst k m = some (k, v) := Keyed.lookup_of_mem h hmem
    rw [get, hlookup]
    rfl
  · intro hget
    obtain ⟨⟨k', v'⟩, he, hv⟩ := Option.map_eq_some_iff.mp hget
    obtain ⟨hmem, hk⟩ := Keyed.mem_of_lookup he
    obtain rfl : k' = k := hk
    obtain rfl : v' = v := hv
    exact hmem

/-- The keys that a loop of `set` leaves are those it started with and those it set. -/
theorem isSome_get_foldl_set :
    (get k (xs.foldl (fun m x => set (key x) (val x) m) m)).isSome ↔
      (get k m).isSome ∨ ∃ x ∈ xs, key x = k := by
  induction xs generalizing m with
  | nil => simp
  | cons x xs ih =>
      rw [List.foldl_cons, ih, get_set]
      by_cases hk : k = key x
      · simp [hk]
      · simp [hk, Ne.symm hk]

/-- An entry that a loop of `set` leaves was there or is that of an element. -/
theorem mem_foldl_set (h : (k, v) ∈ xs.foldl (fun m x => set (key x) (val x) m) m) :
    (k, v) ∈ m ∨ ∃ x ∈ xs, key x = k ∧ val x = v := by
  induction xs generalizing m with
  | nil => exact .inl h
  | cons x xs ih =>
      rcases ih h with h | ⟨y, hy, hky⟩
      · rcases mem_of_mem_set h with h | h
        · exact .inl h
        · obtain ⟨rfl, rfl⟩ := Prod.mk.inj h
          exact .inr ⟨x, List.mem_cons_self, rfl, rfl⟩
      · exact .inr ⟨y, List.mem_cons_of_mem _ hy, hky⟩

theorem nodup_foldl_set (val : List (κ × β) → α → β) (hm : (m.map Prod.fst).Nodup) :
    ((xs.foldl (fun m x => set (key x) (val m x) m) m).map Prod.fst).Nodup := by
  induction xs generalizing m with
  | nil => exact hm
  | cons x xs ih => exact ih (nodup_set hm)

theorem nodup_groupBy : ((groupBy key xs).map Prod.fst).Nodup := by
  show ((xs.foldl _ []).map Prod.fst).Nodup
  exact nodup_foldl_set (fun m x => (get (key x) m).getD [] ++ [x]) List.nodup_nil

/-- A group has the elements of its key, in their order. -/
theorem get_groupBy :
    get k (groupBy key xs) =
      if ∃ x ∈ xs, key x = k then some (xs.filter fun x => decide (key x = k)) else none := by
  induction xs using List.reverseRecOn with
  | nil => simp [groupBy]
  | append_singleton xs x ih =>
      have hstep : groupBy key (xs ++ [x]) =
          set (key x) ((get (key x) (groupBy key xs)).getD [] ++ [x]) (groupBy key xs) := by
        rw [groupBy, List.foldl_append]
        rfl
      rw [hstep, get_set]
      by_cases hk : k = key x
      · subst hk
        have hlast : ∃ y ∈ xs ++ [x], key y = key x :=
          ⟨x, List.mem_append_right _ List.mem_cons_self, rfl⟩
        rw [if_pos rfl, ih, if_pos hlast, List.filter_append]
        by_cases hex : ∃ y ∈ xs, key y = key x
        · simp [hex]
        · have hempty : xs.filter (fun y => decide (key y = key x)) = [] := by
            refine List.filter_eq_nil_iff.mpr fun y hy => ?_
            simpa using fun h => hex ⟨y, hy, h⟩
          simp [hex, hempty]
      · rw [if_neg hk, ih]
        have hfilter : (xs ++ [x]).filter (fun y => decide (key y = k)) =
            xs.filter fun y => decide (key y = k) := by
          simp [List.filter_append, Ne.symm hk]
        have hiff : (∃ y ∈ xs ++ [x], key y = k) ↔ ∃ y ∈ xs, key y = k := by
          simp [or_and_right, exists_or, Ne.symm hk]
        rw [hfilter]
        simp only [hiff]

theorem mem_groupBy {g : List α} :
    (k, g) ∈ groupBy key xs ↔
      (∃ x ∈ xs, key x = k) ∧ g = xs.filter fun x => decide (key x = k) := by
  rw [mem_iff_get nodup_groupBy, get_groupBy]
  split
  · rename_i h
    simp only [Option.some.injEq, h, true_and]
    exact eq_comm
  · rename_i h
    simp [h]

end InsertionMap
