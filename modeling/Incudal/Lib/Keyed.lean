/-
# `Lib.Keyed` — tables of rows with a key

A table is a list of rows; a function gives each row its key, and in a
well-formed table no key occurs twice.  `lookup`, `modify` and `erase` address
a row by its key.  For a column `g` of numbers the sum over the table changes
by exactly what the addressed row changes by (`sum_modify`, `sum_erase`), and
an operation keyed on one row leaves the others alone.
-/
import Mathlib.Algebra.BigOperators.Group.List.Basic
import Mathlib.Algebra.Order.BigOperators.Group.List
import Mathlib.Data.List.Nodup
import Mathlib.Tactic.Abel

namespace Keyed

variable {ρ κ : Type*} [DecidableEq κ] (key : ρ → κ)

/-- The row with key `k`. -/
def lookup (k : κ) (rows : List ρ) : Option ρ := rows.find? fun r => decide (key r = k)

/-- Rewrite the row with key `k`. -/
def modify (k : κ) (f : ρ → ρ) (rows : List ρ) : List ρ :=
  rows.map fun r => if key r = k then f r else r

/-- Drop the row with key `k`. -/
def erase (k : κ) (rows : List ρ) : List ρ := rows.filter fun r => decide (key r ≠ k)

variable {key}
variable {k : κ} {rows : List ρ} {r new : ρ} {f : ρ → ρ}

theorem mem_of_lookup (h : lookup key k rows = some r) : r ∈ rows ∧ key r = k :=
  ⟨List.mem_of_find?_eq_some h, by simpa using List.find?_some h⟩

theorem lookup_eq_none_iff : lookup key k rows = none ↔ ∀ r ∈ rows, key r ≠ k := by
  simp [lookup, List.find?_eq_none]

/-- With distinct keys a row is what its own key finds. -/
theorem lookup_of_mem (hn : (rows.map key).Nodup) (h : r ∈ rows) :
    lookup key (key r) rows = some r := by
  induction rows with
  | nil => simp at h
  | cons a rows ih =>
      simp only [List.map_cons, List.nodup_cons] at hn
      rcases List.mem_cons.mp h with rfl | h
      · simp [lookup]
      · have hne : key a ≠ key r := fun he => hn.1 (he ▸ List.mem_map_of_mem h)
        have := ih hn.2 h
        simpa [lookup, List.find?_cons, hne] using this

/-- A column that a rewrite leaves alone in the row it addresses. -/
theorem map_modify_of_mem {β : Type*} {g : ρ → β} (hf : ∀ r ∈ rows, key r = k → g (f r) = g r) :
    (modify key k f rows).map g = rows.map g := by
  simp only [modify, List.map_map]
  refine List.map_congr_left fun r hr => ?_
  simp only [Function.comp_apply]
  split_ifs with hk
  · exact hf r hr hk
  · rfl

/-- A column that a rewrite leaves alone. -/
theorem map_modify_same {β : Type*} {g : ρ → β} (hf : ∀ r, g (f r) = g r) :
    (modify key k f rows).map g = rows.map g :=
  map_modify_of_mem fun r _ _ => hf r

/-- A rewrite that keeps the key it addresses keeps the list of keys. -/
theorem map_key_modify_of (hf : ∀ r, key r = k → key (f r) = k) :
    (modify key k f rows).map key = rows.map key :=
  map_modify_of_mem fun r _ hk => (hf r hk).trans hk.symm

/-- A rewrite that keeps keys keeps the list of keys. -/
theorem map_key_modify (hf : ∀ r, key (f r) = key r) :
    (modify key k f rows).map key = rows.map key :=
  map_key_modify_of fun r hk => (hf r).trans hk

theorem nodup_erase (hn : (rows.map key).Nodup) : ((erase key k rows).map key).Nodup :=
  hn.sublist (List.Sublist.map key List.filter_sublist)

omit [DecidableEq κ] in
/-- A row with a new key keeps the keys distinct. -/
theorem nodup_append_singleton (hn : (rows.map key).Nodup) (hfresh : ∀ r ∈ rows, key r ≠ key new) :
    ((rows ++ [new]).map key).Nodup := by
  rw [List.map_append, List.nodup_append]
  refine ⟨hn, List.nodup_singleton _, fun a ha b hb => ?_⟩
  obtain ⟨r, hr, rfl⟩ := List.mem_map.mp ha
  obtain rfl := List.mem_singleton.mp hb
  exact hfresh r hr

omit [DecidableEq κ] in
/-- Where rows are numbered, a new row at the end, and numbers that stay below the next one. -/
theorem below_concat {number : ρ → ℕ} {next next' : ℕ} (h : ∀ r ∈ rows, number r < next)
    (hle : next ≤ next') (hnew : number new < next') : ∀ r ∈ rows ++ [new], number r < next' := by
  intro r hr
  rcases List.mem_append.mp hr with hr | hr
  · exact (h r hr).trans_le hle
  · rw [List.mem_singleton.mp hr]
    exact hnew

omit [DecidableEq κ] in
/-- The same for a new row in front. -/
theorem below_cons {number : ρ → ℕ} {next next' : ℕ} (h : ∀ r ∈ rows, number r < next)
    (hle : next ≤ next') (hnew : number new < next') : ∀ r ∈ new :: rows, number r < next' := by
  intro r hr
  rcases List.mem_cons.mp hr with rfl | hr
  · exact hnew
  · exact (h r hr).trans_le hle

@[simp] theorem modify_id : modify key k id rows = rows := by simp [modify]

/-- A key that is not in the table is not rewritten. -/
theorem modify_of_not_mem (h : ∀ r ∈ rows, key r ≠ k) : modify key k f rows = rows := by
  refine (List.map_congr_left fun r hr => ?_).trans (List.map_id rows)
  rw [if_neg (h r hr)]; rfl

theorem mem_modify {r' : ρ} :
    r' ∈ modify key k f rows ↔ ∃ r ∈ rows, r' = if key r = k then f r else r := by
  simp [modify, eq_comm]

theorem mem_modify_of_ne {r' : ρ} (h : r ∈ rows) (hne : key r ≠ k) (hr : r' = r) :
    r' ∈ modify key k f rows :=
  List.mem_map.mpr ⟨r, h, by rw [if_neg hne, hr]⟩

theorem mem_erase : r ∈ erase key k rows ↔ r ∈ rows ∧ key r ≠ k := by
  simp [erase, List.mem_filter]

/-- A rewrite that keeps the key it addresses is seen under that key alone. -/
theorem lookup_modify {k' : κ} (hf : ∀ r, key r = k → key (f r) = k) :
    lookup key k' (modify key k f rows)
      = if k' = k then (lookup key k rows).map f else lookup key k' rows := by
  induction rows with
  | nil => simp [lookup, modify]
  | cons a rows ih =>
      have hcons : modify key k f (a :: rows) = (if key a = k then f a else a) ::
        modify key k f rows := rfl
      rw [hcons]
      by_cases ha : key a = k
      · by_cases hk : k' = k
        · simp [lookup, ha, hf a ha, hk]
        · simp only [if_neg hk] at ih ⊢
          simpa [lookup, ha, hf a ha, Ne.symm hk] using ih
      · by_cases hk : k' = k
        · subst hk
          simpa [lookup, ha] using ih
        · simp only [if_neg hk] at ih ⊢
          by_cases hk' : key a = k'
          · simp [lookup, hk', hk]
          · simpa [lookup, ha, hk'] using ih

theorem lookup_modify_self (hf : ∀ r, key (f r) = key r) (h : lookup key k rows = some r) :
    lookup key k (modify key k f rows) = some (f r) := by
  rw [lookup_modify fun r hk => (hf r).trans hk, if_pos rfl, h, Option.map_some]

theorem lookup_modify_of_ne {k' : κ} (hf : ∀ r, key (f r) = key r) (hne : k' ≠ k) :
    lookup key k' (modify key k f rows) = lookup key k' rows := by
  rw [lookup_modify fun r hk => (hf r).trans hk, if_neg hne]

/-- A rewrite of all rows that keeps keys is seen through `lookup`. -/
theorem lookup_map {g : ρ → ρ} (hg : ∀ r, key (g r) = key r) :
    lookup key k (rows.map g) = (lookup key k rows).map g := by
  induction rows with
  | nil => rfl
  | cons a rows ih =>
      by_cases ha : key a = k
      · simp [lookup, hg, ha]
      · simpa [lookup, List.find?_cons, hg, ha] using ih

/-- Dropping rows drops what they show. -/
theorem lookup_filter (hn : (rows.map key).Nodup) (p : ρ → Bool) :
    lookup key k (rows.filter p) = (lookup key k rows).filter p := by
  induction rows with
  | nil => rfl
  | cons a rows ih =>
      simp only [List.map_cons, List.nodup_cons] at hn
      by_cases ha : key a = k
      · have hnone : lookup key k (rows.filter p) = none := by
          refine lookup_eq_none_iff.mpr fun r hr he => hn.1 ?_
          exact (ha.trans he.symm) ▸ List.mem_map_of_mem (List.mem_of_mem_filter hr)
        cases hp : p a with
        | true => simp [lookup, Option.filter, hp, ha]
        | false =>
            rw [List.filter_cons_of_neg (by simp [hp]), hnone]
            simp [lookup, Option.filter, ha, hp]
      · have := ih hn.2
        cases hp : p a with
        | true => simpa [lookup, List.find?_cons, hp, ha] using this
        | false => simpa [lookup, List.find?_cons, List.filter_cons, hp, ha] using this

theorem lookup_append_singleton (hfresh : ∀ r ∈ rows, key r ≠ key new) :
    lookup key k (rows ++ [new]) = if key new = k then some new else lookup key k rows := by
  by_cases hk : key new = k
  · have hnone : lookup key k rows = none :=
      lookup_eq_none_iff.mpr fun r hr he => hfresh r hr (he.trans hk.symm)
    simp only [lookup] at hnone
    simp [lookup, List.find?_append, hnone, hk]
  · simp [lookup, List.find?_append, hk]

/-- With distinct keys the other rows stand before and behind, and are left alone. -/
theorem split_of_mem (hn : (rows.map key).Nodup) (hr : r ∈ rows) :
    ∃ before after, rows = before ++ r :: after ∧
      (∀ f, modify key (key r) f rows = before ++ f r :: after) ∧
      erase key (key r) rows = before ++ after := by
  obtain ⟨before, after, rfl⟩ := List.append_of_mem hr
  rw [List.map_append, List.map_cons, List.nodup_middle, List.nodup_cons] at hn
  have hother : ∀ a ∈ before ++ after, key a ≠ key r := by
    intro a ha he
    rw [← List.map_append] at hn
    exact hn.1 (he ▸ List.mem_map_of_mem ha)
  have hbefore : ∀ a ∈ before, key a ≠ key r := fun a ha => hother a (List.mem_append_left _ ha)
  have hafter : ∀ a ∈ after, key a ≠ key r := fun a ha => hother a (List.mem_append_right _ ha)
  refine ⟨before, after, rfl, fun f => ?_, ?_⟩
  · have hb : modify key (key r) f before = before := modify_of_not_mem hbefore
    have ha : modify key (key r) f after = after := modify_of_not_mem hafter
    rw [modify] at hb ha ⊢
    rw [List.map_append, List.map_cons, hb, ha, if_pos rfl]
  · have hb : before.filter (fun a => decide (key a ≠ key r)) = before :=
      List.filter_eq_self.mpr fun a ha => decide_eq_true (hbefore a ha)
    have ha : after.filter (fun a => decide (key a ≠ key r)) = after :=
      List.filter_eq_self.mpr fun a ha => decide_eq_true (hafter a ha)
    rw [erase, List.filter_append, List.filter_cons, hb, ha]
    simp

/-- Rewriting a row that shows nothing adds what the row shows then. -/
theorem filterMap_modify {β : Type*} {column : ρ → Option β} (hn : (rows.map key).Nodup)
    (hr : r ∈ rows) (hnone : column r = none) :
    ((modify key (key r) f rows).filterMap column).Perm
      ((column (f r)).toList ++ rows.filterMap column) := by
  obtain ⟨before, after, hrows, hmodify, -⟩ := split_of_mem hn hr
  have hbefore : rows.filterMap column = before.filterMap column ++ after.filterMap column := by
    rw [hrows, List.filterMap_append, List.filterMap_cons_none hnone]
  rw [hmodify, hbefore, List.filterMap_append]
  cases hf : column (f r) with
  | none =>
      rw [List.filterMap_cons_none hf]
      exact .refl _
  | some b =>
      rw [List.filterMap_cons_some hf]
      exact List.perm_middle

section Sums

variable {α : Type*} [AddCommGroup α] (g : ρ → α)

/-- The sum of the column `g`. -/
def total (rows : List ρ) : α := (rows.map g).sum

@[simp] theorem total_nil : total g [] = 0 := rfl

@[simp] theorem total_cons (a : ρ) (rows : List ρ) :
    total g (a :: rows) = g a + total g rows := by simp [total]

@[simp] theorem total_append (rows rows' : List ρ) :
    total g (rows ++ rows') = total g rows + total g rows' := by simp [total]

variable {g}

theorem total_congr {g' : ρ → α} (h : ∀ r ∈ rows, g r = g' r) : total g rows = total g' rows := by
  simp only [total]
  rw [List.map_congr_left h]

theorem total_eq_zero (h : ∀ r ∈ rows, g r = 0) : total g rows = 0 := by
  simp only [total, List.map_congr_left h]
  simp

/-- Rewriting a row changes the sum by what the row changes by. -/
theorem total_modify (hn : (rows.map key).Nodup) (hr : r ∈ rows) :
    total g (modify key (key r) f rows) = total g rows - g r + g (f r) := by
  obtain ⟨before, after, hrows, hmodify, -⟩ := split_of_mem hn hr
  have hrest : total g rows = total g before + (g r + total g after) := by
    rw [hrows, total_append, total_cons]
  rw [hmodify, hrest, total_append, total_cons]
  abel

/-- Dropping a row lowers the sum by the row. -/
theorem total_erase (hn : (rows.map key).Nodup) (hr : r ∈ rows) :
    total g (erase key (key r) rows) = total g rows - g r := by
  obtain ⟨before, after, hrows, -, herase⟩ := split_of_mem hn hr
  have hrest : total g rows = total g before + (g r + total g after) := by
    rw [hrows, total_append, total_cons]
  rw [herase, hrest, total_append]
  abel

theorem total_add (g' : ρ → α) :
    total (fun r => g r + g' r) rows = total g rows + total g' rows := by
  simp only [total]
  exact List.sum_map_add

/-- The sum over the rows that `q` picks. -/
theorem total_filter (q : ρ → Bool) (rows : List ρ) :
    total g (rows.filter q) = total (fun r => if q r then g r else 0) rows := by
  induction rows with
  | nil => rfl
  | cons a rows ih =>
      rw [List.filter_cons, total_cons, ← ih]
      cases q a with
      | false => simp
      | true => simp

/-- What is closed under sums and holds of every row holds of the total. -/
theorem total_induction {P : α → Prop} (h0 : P 0) (hadd : ∀ a b, P a → P b → P (a + b))
    (h : ∀ r ∈ rows, P (g r)) : P (total g rows) := by
  induction rows with
  | nil => exact h0
  | cons a rows ih =>
      rw [total_cons]
      exact hadd _ _ (h a List.mem_cons_self) (ih fun r hr => h r (List.mem_cons_of_mem _ hr))

section Order

variable [PartialOrder α] [IsOrderedAddMonoid α]

theorem total_nonneg (h : ∀ r ∈ rows, 0 ≤ g r) : 0 ≤ total g rows :=
  total_induction le_rfl (fun _ _ => add_nonneg) h

/-- No row of a column without negative entries is more than the total. -/
theorem le_total (h : ∀ r ∈ rows, 0 ≤ g r) (hr : r ∈ rows) : g r ≤ total g rows := by
  refine List.single_le_sum (fun a ha => ?_) _ (List.mem_map_of_mem hr)
  obtain ⟨b, hb, rfl⟩ := List.mem_map.mp ha
  exact h b hb

theorem total_le_total {g' : ρ → α} (h : ∀ r ∈ rows, g r ≤ g' r) :
    total g rows ≤ total g' rows :=
  List.sum_le_sum h

end Order

end Sums

end Keyed
