/-
# `Lib.Ranked` — the highest rank among the entries that pass a test

`best key p xs` is the highest key of an entry of `xs` that passes `p`, the
least element where none does.  Two ways to find it are the same: sort all
entries downwards and take the first one that passes (`find?_sorted`), or keep
those that pass and sort them (`head?_sorted_filter`).  A test that more
entries pass can only raise it (`best_mono`).
-/
import Mathlib.Data.List.Sort
import Mathlib.Data.Multiset.Lattice

namespace Ranked

variable {ι α : Type*} [LinearOrder α] [OrderBot α]

def best (key : ι → α) (p : ι → Bool) (xs : List ι) : α :=
  (Multiset.map key (xs.filter p)).sup

variable {key : ι → α} {p q : ι → Bool} {xs ys : List ι} {x : ι}

theorem le_best (hx : x ∈ xs) (hp : p x = true) : key x ≤ best key p xs :=
  Multiset.le_sup (Multiset.mem_map_of_mem key (List.mem_filter.mpr ⟨hx, hp⟩))

theorem best_le {a : α} (h : ∀ x ∈ xs, p x = true → key x ≤ a) : best key p xs ≤ a := by
  refine Multiset.sup_le.mpr fun b hb => ?_
  obtain ⟨x, hx, rfl⟩ := Multiset.mem_map.mp hb
  obtain ⟨hmem, hp⟩ := List.mem_filter.mp hx
  exact h x hmem hp

theorem best_mono (h : ∀ x ∈ xs, p x = true → q x = true) : best key p xs ≤ best key q xs :=
  best_le fun x hx hp => le_best hx (h x hx hp)

theorem best_perm (h : xs.Perm ys) : best key p xs = best key p ys := by
  have hcoe : ((xs.filter p : List ι) : Multiset ι) = (ys.filter p : List ι) :=
    Multiset.coe_eq_coe.mpr (h.filter p)
  rw [best, best, hcoe]

theorem best_congr (h : ∀ x ∈ xs, p x = q x) : best key p xs = best key q xs := by
  rw [best, best, List.filter_congr h]

theorem best_filter : best key p (xs.filter q) = best key (fun x => p x && q x) xs := by
  rw [best, best, List.filter_filter]

/-- The first entry that passes has the highest rank, where the ranks go down. -/
theorem find?_of_pairwise (h : xs.Pairwise fun x y => key y ≤ key x) :
    ((xs.find? p).map key).getD ⊥ = best key p xs := by
  induction xs with
  | nil => rfl
  | cons x xs ih =>
    obtain ⟨hfirst, hrest⟩ := List.pairwise_cons.mp h
    cases hp : p x with
    | true =>
      rw [List.find?_cons_of_pos hp]
      refine le_antisymm (le_best List.mem_cons_self hp) (best_le fun y hy _ => ?_)
      rcases List.mem_cons.mp hy with rfl | hy
      · exact le_rfl
      · exact hfirst y hy
    | false =>
      have hnot : ¬p x = true := by rw [hp]; exact Bool.false_ne_true
      rw [List.find?_cons_of_neg hnot, ih hrest, best, best, List.filter_cons_of_neg hnot]

/-- Sorted downwards by rank; entries of one rank keep their order. -/
abbrev downwards (key : ι → α) (xs : List ι) : List ι :=
  xs.insertionSort fun x y => key y ≤ key x

omit [OrderBot α] in
theorem pairwise_downwards (key : ι → α) (xs : List ι) :
    (downwards key xs).Pairwise fun x y => key y ≤ key x := by
  have htotal : Std.Total fun x y : ι => key y ≤ key x := ⟨fun x y => le_total (key y) (key x)⟩
  have htrans : IsTrans ι fun x y => key y ≤ key x := ⟨fun _ _ _ hxy hyz => hyz.trans hxy⟩
  exact List.pairwise_insertionSort _ xs

theorem find?_downwards (key : ι → α) (p : ι → Bool) (xs : List ι) :
    (((downwards key xs).find? p).map key).getD ⊥ = best key p xs :=
  (find?_of_pairwise (pairwise_downwards key xs)).trans
    (best_perm (List.perm_insertionSort _ xs))

theorem head?_downwards_filter (key : ι → α) (p : ι → Bool) (xs : List ι) :
    ((downwards key (xs.filter p)).head?.map key).getD ⊥ = best key p xs := by
  have hall : ∀ ys : List ι, ys.head? = ys.find? fun _ => true := by
    intro ys
    cases ys with
    | nil => rfl
    | cons y ys => rfl
  rw [hall, find?_downwards, best, best, List.filter_true]

end Ranked
