/-
# `Lib.GreedyMatching` — taking edges one by one unless an end is taken

A candidate has two ends.  The candidates are gone through in order, and each is
taken unless one of its ends is an end of one that was taken before.  What is taken
has no end twice (`Matching`), and a candidate that is not taken shares an end with
one that stands before it (`mem_or_blocked`); in a sorted list that one is not the
greater of the two (`exists_le_of_mem`).
-/
import Mathlib.Data.List.Basic

namespace GreedyMatching

variable {ε α β : Type*} [DecidableEq α] [DecidableEq β] (left : ε → α) (right : ε → β)

/-- The candidate shares an end with one of those taken. -/
def Blocked (taken : List ε) (e : ε) : Prop := ∃ d ∈ taken, left d = left e ∨ right d = right e

/-- No end twice. -/
def Matching (taken : List ε) : Prop := taken.Pairwise fun d e => left d ≠ left e ∧ right d ≠ right e

instance (taken : List ε) (e : ε) : Decidable (Blocked left right taken e) :=
  inferInstanceAs (Decidable (∃ d ∈ taken, left d = left e ∨ right d = right e))

def take (taken : List ε) (e : ε) : List ε :=
  if Blocked left right taken e then taken else taken ++ [e]

def greedy (taken candidates : List ε) : List ε := candidates.foldl (take left right) taken

variable {left right} {taken candidates before after : List ε} {d e : ε} {r : ε → ε → Prop}

theorem subset_take : taken ⊆ take left right taken e := by
  unfold take
  split
  · exact List.Subset.refl _
  · exact List.subset_append_left _ _

theorem mem_of_mem_take (h : d ∈ take left right taken e) : d ∈ taken ∨ d = e := by
  unfold take at h
  split at h
  · exact .inl h
  · exact (List.mem_append.mp h).imp_right List.mem_singleton.mp

theorem subset_greedy : taken ⊆ greedy left right taken candidates := by
  induction candidates generalizing taken with
  | nil => exact List.Subset.refl _
  | cons e candidates ih => exact List.Subset.trans subset_take ih

theorem mem_of_mem_greedy (h : d ∈ greedy left right taken candidates) :
    d ∈ taken ∨ d ∈ candidates := by
  induction candidates generalizing taken with
  | nil => exact .inl h
  | cons e candidates ih =>
      rcases ih h with h | h
      · rcases mem_of_mem_take h with h | rfl
        · exact .inl h
        · exact .inr List.mem_cons_self
      · exact .inr (List.mem_cons_of_mem _ h)

theorem Matching.take (h : Matching left right taken) :
    Matching left right (take left right taken e) := by
  unfold GreedyMatching.take
  split
  · exact h
  · rename_i hfree
    refine List.pairwise_append.mpr ⟨h, List.pairwise_singleton _ _, fun d hd f hf => ?_⟩
    obtain rfl := List.mem_singleton.mp hf
    exact ⟨fun heq => hfree ⟨d, hd, .inl heq⟩, fun heq => hfree ⟨d, hd, .inr heq⟩⟩

theorem Matching.greedy (h : Matching left right taken) :
    Matching left right (greedy left right taken candidates) := by
  induction candidates generalizing taken with
  | nil => exact h
  | cons e candidates ih => exact ih h.take

/-- A candidate is taken, or shares an end with one that was taken before it. -/
theorem mem_or_blocked (hsplit : candidates = before ++ e :: after) :
    e ∈ greedy left right taken candidates ∨
      ∃ d ∈ greedy left right taken candidates, (d ∈ taken ∨ d ∈ before) ∧
        (left d = left e ∨ right d = right e) := by
  subst hsplit
  rw [greedy, List.foldl_append, List.foldl_cons]
  let soFar : List ε := greedy left right taken before
  have hkept : take left right soFar e ⊆ greedy left right (take left right soFar e) after :=
    subset_greedy
  by_cases hblocked : Blocked left right soFar e
  · obtain ⟨d, hd, hends⟩ := hblocked
    exact .inr ⟨d, hkept (subset_take hd), mem_of_mem_greedy hd, hends⟩
  · refine .inl (hkept ?_)
    rw [take, if_neg hblocked]
    exact List.mem_append_right _ List.mem_cons_self

/-- In a sorted list every candidate shares an end with one taken that is not greater. -/
theorem exists_le_of_mem (hrefl : ∀ e, r e e) (hsorted : candidates.Pairwise r)
    (he : e ∈ candidates) :
    ∃ d ∈ greedy left right [] candidates, r d e ∧ (left d = left e ∨ right d = right e) := by
  obtain ⟨before, after, hsplit⟩ := List.append_of_mem he
  have htaken : e ∈ greedy left right [] candidates ∨ _ := mem_or_blocked hsplit
  rcases htaken with h | ⟨d, hd, hbefore, hends⟩
  · exact ⟨e, h, hrefl e, .inl rfl⟩
  · have hd' : d ∈ before := hbefore.resolve_left List.not_mem_nil
    rw [hsplit, List.pairwise_append] at hsorted
    exact ⟨d, hd, hsorted.2.2 d hd' e List.mem_cons_self, hends⟩

end GreedyMatching
