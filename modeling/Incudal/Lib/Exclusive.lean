/-
# `Lib.Exclusive` — at most one of some parties

The parties of a system are a list, each with its local state.  `Exclusive p l`
says that at most one place of the list has `p`: at most one party holds a lock,
is in a critical section, has claimed a row.  A party moves by `List.set`, and
`Exclusive.set` is what it has to show for its move: it had `p` already, or
nobody had.
-/
import Mathlib.Data.List.Basic

variable {α : Type*} {p : α → Prop} {l : List α} {a b : α} {k : ℕ}

/-- A member after a move is the party that has moved, or stands at another place. -/
theorem mem_set_cases (h : b ∈ l.set k a) : b = a ∨ ∃ j, j ≠ k ∧ l[j]? = some b := by
  obtain ⟨j, hj⟩ := List.mem_iff_getElem?.mp h
  by_cases hjk : j = k
  · subst hjk
    have hlength := (List.getElem?_eq_some_iff.mp hj).1
    rw [List.length_set] at hlength
    rw [List.getElem?_set_self hlength] at hj
    exact .inl (Option.some.inj hj).symm
  · rw [List.getElem?_set_ne (Ne.symm hjk)] at hj
    exact .inr ⟨j, hjk, hj⟩

/-- At most one place of the list has `p`. -/
def Exclusive (p : α → Prop) (l : List α) : Prop :=
  ∀ (j k : ℕ) (a b : α), l[j]? = some a → l[k]? = some b → p a → p b → j = k

namespace Exclusive

theorem nil : Exclusive p [] := by
  intro j k a b ha
  simp at ha

/-- A party may move to `p` if it was there, or if nobody is. -/
theorem set (h : Exclusive p l) (hk : l[k]? = some a) (hp : p b → p a ∨ ∀ c ∈ l, ¬p c) :
    Exclusive p (l.set k b) := by
  have hold : ∀ (j : ℕ) (c : α), (l.set k b)[j]? = some c → p c → p b ∧ j = k ∨ j ≠ k ∧ l[j]? = some c := by
    intro j c hc hpc
    by_cases hj : j = k
    · subst hj
      have hb : c = b := by
        rw [List.getElem?_set_self (List.getElem?_eq_some_iff.mp hk).1] at hc
        exact (Option.some.inj hc).symm
      exact .inl ⟨hb ▸ hpc, rfl⟩
    · rw [List.getElem?_set_ne (Ne.symm hj)] at hc
      exact .inr ⟨hj, hc⟩
  -- against a party that has not moved, the one that has is as it was before
  have hcross : ∀ (j : ℕ) (c : α), j ≠ k → l[j]? = some c → p c → p b → False := by
    intro j c hj hc hpc hpb
    rcases hp hpb with hpa | hnone
    · exact hj (h j k c a hc hk hpc hpa)
    · exact hnone c (List.mem_of_getElem? hc) hpc
  intro i j c d hc hd hpc hpd
  rcases hold i c hc hpc with ⟨hpb, rfl⟩ | ⟨hi, hc'⟩ <;>
    rcases hold j d hd hpd with ⟨hpb', rfl⟩ | ⟨hj, hd'⟩
  · rfl
  · exact (hcross j d hj hd' hpd hpb).elim
  · exact (hcross i c hi hc' hpc hpb').elim
  · exact h i j c d hc' hd' hpc hpd

/-- A party that has just come does not have `p`. -/
theorem append_singleton (h : Exclusive p l) (ha : ¬p a) : Exclusive p (l ++ [a]) := by
  have hold : ∀ (j : ℕ) (c : α), (l ++ [a])[j]? = some c → p c → l[j]? = some c := by
    intro j c hc hpc
    rcases Nat.lt_or_ge j l.length with hj | hj
    · rwa [List.getElem?_append_left hj] at hc
    · rw [List.getElem?_append_right hj] at hc
      have hmem := List.mem_of_getElem? hc
      rw [List.mem_singleton] at hmem
      exact absurd (hmem ▸ hpc) ha
  intro i j c d hc hd hpc hpd
  exact h i j c d (hold i c hc hpc) (hold j d hd hpd) hpc hpd

end Exclusive
