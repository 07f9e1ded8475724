/-
# `Lib.Precedes` — two items of a list, one before the other

`Precedes a b l`: the list has `a` and, further on, `b`.  Where items go from the
front, or by a test that spares `b` if it spares `a`, a pair stays in order for as
long as its first item is there.
-/
import Mathlib.Data.List.Nodup

variable {α : Type*} {a b : α} {l l' front back : List α} {p : α → Bool}

/-- The list has `a`, and `b` after it. -/
def Precedes (a b : α) (l : List α) : Prop := List.Sublist [a, b] l

namespace Precedes

theorem left (h : Precedes a b l) : a ∈ l := h.subset List.mem_cons_self

theorem right (h : Precedes a b l) : b ∈ l :=
  h.subset (List.mem_cons_of_mem _ List.mem_cons_self)

theorem mono (h : Precedes a b l) (hsub : l.Sublist l') : Precedes a b l' := h.trans hsub

theorem concat (h : a ∈ l) : Precedes a b (l ++ [b]) :=
  (List.singleton_sublist.mpr h).append (List.Sublist.refl [b])

theorem filter (h : Precedes a b l) (ha : p a = true) (hb : p b = true) :
    Precedes a b (l.filter p) := by
  have hpair : [a, b].filter p = [a, b] := by simp [ha, hb]
  unfold Precedes
  rw [← hpair]
  exact List.Sublist.filter p h

/-- Both on one side, or one on each. -/
theorem append_cases (h : Precedes a b (front ++ back)) :
    Precedes a b back ∨ a ∈ front ∧ b ∈ back ∨ Precedes a b front := by
  obtain ⟨l₁, l₂, hpair, h₁, h₂⟩ := List.sublist_append_iff.mp h
  rcases l₁ with - | ⟨c, - | ⟨d, l₁⟩⟩
  · rw [List.nil_append] at hpair
    exact .inl (hpair.symm ▸ h₂ : List.Sublist [a, b] back)
  · obtain ⟨rfl, rfl⟩ := List.cons.inj hpair
    exact .inr (.inl ⟨h₁.subset List.mem_cons_self, h₂.subset List.mem_cons_self⟩)
  · have hnil : l₂ = [] := by
      have := congrArg List.length hpair
      simp only [List.length_cons, List.length_append, List.length_nil] at this
      exact List.length_eq_zero_iff.mp (by omega)
    rw [hnil, List.append_nil] at hpair
    exact .inr (.inr (hpair.symm ▸ h₁ : List.Sublist [a, b] front))

/-- The front is tested, the back stays. -/
theorem filter_append (h : Precedes a b (front ++ back)) (hn : (front ++ back).Nodup)
    (ha : a ∈ front.filter p ++ back) (hab : p a = true → p b = true) :
    Precedes a b (front.filter p ++ back) := by
  rcases h.append_cases with hback | hfront
  · exact hback.mono (List.sublist_append_right _ _)
  · have hmem : a ∈ front := by
      rcases hfront with hfront | hfront
      · exact hfront.1
      · exact hfront.left
    have hfilter : a ∈ front.filter p := by
      rcases List.mem_append.mp ha with ha | ha
      · exact ha
      · exact (List.disjoint_of_nodup_append hn hmem ha).elim
    have hp := (List.mem_filter.mp hfilter).2
    rcases hfront with ⟨-, hb⟩ | hfront
    · exact (List.singleton_sublist.mpr hfilter).append (List.singleton_sublist.mpr hb)
    · exact (hfront.filter hp (hab hp)).mono (List.sublist_append_left _ _)

theorem drop {n : ℕ} (h : Precedes a b l) (hn : l.Nodup) (ha : a ∈ l.drop n) :
    Precedes a b (l.drop n) := by
  rw [← List.take_append_drop n l] at h hn
  have hapart := List.disjoint_of_nodup_append hn
  rcases h.append_cases with hback | ⟨hfront, -⟩ | hfront
  · exact hback
  · exact (hapart hfront ha).elim
  · exact (hapart hfront.left ha).elim

end Precedes
