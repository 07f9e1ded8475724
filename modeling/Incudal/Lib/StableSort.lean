/-
# `Lib.StableSort` — the order in which a stable sort leaves two elements

A stable sort moves an element past another only where the comparison says so:
of two elements `a` before `b`, the sorted list has `a` first exactly if
`a ≼ b`.  Hence any relation holds along the sorted list if and only if it
holds of every two elements of the unsorted one in the order the comparison
gives them (`pairwise_insertionSort_iff`), whether or not it has anything to
do with the key that is sorted by.
-/
import Mathlib.Data.List.Sort

namespace StableSort

variable {α : Type*} {r : α → α → Prop} [DecidableRel r] {R : α → α → Prop} {a : α} {l : List α}

/-- Two elements of the list, the first before the second, as a stable sort leaves them. -/
def Ordered (r : α → α → Prop) (R : α → α → Prop) (a b : α) : Prop :=
  (r a b → R a b) ∧ (¬r a b → R b a)

/-- An element is inserted in front of those it is not greater than, behind the others. -/
theorem pairwise_orderedInsert_iff [IsTrans α r] (hl : l.Pairwise r) :
    (l.orderedInsert r a).Pairwise R ↔ (∀ b ∈ l, Ordered r R a b) ∧ l.Pairwise R := by
  induction l with
  | nil => simp
  | cons b l ih =>
      obtain ⟨hb, htail⟩ := List.pairwise_cons.mp hl
      by_cases hab : r a b
      · rw [List.orderedInsert_cons_of_le r l hab, List.pairwise_cons]
        -- `a` is not greater than `b`, and so not than what stands behind `b`
        have hle : ∀ c ∈ b :: l, r a c := by
          intro c hc
          rcases List.mem_cons.mp hc with rfl | hc
          · exact hab
          · exact IsTrans.trans _ _ _ hab (hb c hc)
        refine and_congr_left fun _ => forall₂_congr fun c hc => ?_
        exact ⟨fun h => ⟨fun _ => h, fun hn => absurd (hle c hc) hn⟩, fun h => h.1 (hle c hc)⟩
      · rw [List.orderedInsert_of_not_le r l hab, List.pairwise_cons, ih htail, List.pairwise_cons]
        have hmem : (∀ c ∈ l.orderedInsert r a, R b c) ↔ R b a ∧ ∀ c ∈ l, R b c := by
          simp only [List.mem_orderedInsert]
          exact ⟨fun h => ⟨h a (.inl rfl), fun c hc => h c (.inr hc)⟩,
            fun h c hc => hc.elim (fun e => e ▸ h.1) (h.2 c)⟩
        have hord : Ordered r R a b ↔ R b a :=
          ⟨fun h => h.2 hab, fun h => ⟨fun h' => absurd h' hab, fun _ => h⟩⟩
        rw [hmem, List.forall_mem_cons, hord]
        tauto

/-- A relation holds along the sorted list if and only if it holds of every two elements in the
order that the comparison gives them. -/
theorem pairwise_insertionSort_iff [Std.Total r] [IsTrans α r] :
    (l.insertionSort r).Pairwise R ↔ l.Pairwise (Ordered r R) := by
  induction l with
  | nil => simp
  | cons a l ih =>
      rw [List.insertionSort_cons, pairwise_orderedInsert_iff (List.pairwise_insertionSort r l), ih,
        List.pairwise_cons]
      refine and_congr_left fun _ => forall_congr' fun b => ?_
      rw [List.mem_insertionSort]

/-- What does not hold of two elements is not before what does, in a list in which `p` is kept
from one element to the later ones. -/
theorem pairwise_split_iff {p : α → Prop} :
    l.Pairwise (fun a b => p b → p a) ↔
      ∀ n, (∃ b ∈ l.drop n, p b) → ∀ a ∈ l.take n, p a := by
  constructor
  · rintro h n ⟨b, hb, hpb⟩ a ha
    rw [← List.take_append_drop n l, List.pairwise_append] at h
    exact h.2.2 a ha b hb hpb
  · intro h
    induction l with
    | nil => exact .nil
    | cons c l ih =>
        refine List.pairwise_cons.mpr ⟨fun b hb hpb => ?_, ih fun n hdrop a ha => ?_⟩
        · exact h 1 ⟨b, hb, hpb⟩ c (by simp)
        · exact h (n + 1) hdrop a (by simp [ha])

end StableSort
