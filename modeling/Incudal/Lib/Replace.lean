/-
# `Lib.Replace` — a text with every match of a pattern replaced

A pattern reads a match at the head of a text and returns what is behind it.
`replaceAll` goes through a text from the left: a match is replaced and skipped, a
character at which none begins is copied.  So the outcome is known once a text
is cut into matches and stretches without one; and what precedes the first
replacement was there before (`prefix_of_prefix_replaceAll`).
-/
import Mathlib.Data.List.Basic

namespace Replace

variable {α : Type*}

/-- The number of characters to skip counts those of the last match. -/
def replaceFrom (m : List α → Option (List α)) (put : List α) : ℕ → List α → List α
  | _, [] => []
  | k + 1, _ :: s => replaceFrom m put k s
  | 0, c :: s =>
      match m (c :: s) with
      | some rest => put ++ replaceFrom m put (s.length - rest.length) s
      | none => c :: replaceFrom m put 0 s

def replaceAll (m : List α → Option (List α)) (put s : List α) : List α :=
  replaceFrom m put 0 s

variable {m : List α → Option (List α)} {put front matched rest s p : List α} {c : α}

@[simp] theorem replaceAll_nil : replaceAll m put [] = [] := rfl

theorem replaceFrom_eq (k : ℕ) (s : List α) :
    replaceFrom m put k s = replaceAll m put (s.drop k) := by
  induction s generalizing k with
  | nil => cases k <;> rfl
  | cons c s ih =>
      cases k with
      | zero => rfl
      | succ k => exact ih k

theorem replaceAll_cons_of_none (h : m (c :: s) = none) :
    replaceAll m put (c :: s) = c :: replaceAll m put s := by
  rw [replaceAll, replaceFrom, h]
  rfl

theorem replaceAll_cons_of_some (h : m (c :: s) = some rest) :
    replaceAll m put (c :: s) = put ++ replaceAll m put (s.drop (s.length - rest.length)) := by
  rw [replaceAll, replaceFrom, h]
  exact congrArg _ (replaceFrom_eq _ s)

theorem replaceAll_of_match (hne : matched ≠ []) (h : m (matched ++ rest) = some rest) :
    replaceAll m put (matched ++ rest) = put ++ replaceAll m put rest := by
  obtain ⟨c, tail, rfl⟩ := List.exists_cons_of_ne_nil hne
  rw [List.cons_append] at h ⊢
  have hskip : (tail ++ rest).length - rest.length = tail.length := by
    rw [List.length_append]
    omega
  rw [replaceAll_cons_of_some h, hskip, List.drop_left]

/-- A stretch at which no match begins is copied. -/
theorem replaceAll_append_of_none
    (h : ∀ c tail, c :: tail <:+ front → m (c :: tail ++ rest) = none) :
    replaceAll m put (front ++ rest) = front ++ replaceAll m put rest := by
  induction front with
  | nil => rfl
  | cons c front ih =>
      have hnone : m (c :: (front ++ rest)) = none := h c front List.suffix_rfl
      rw [List.cons_append, replaceAll_cons_of_none hnone,
        ih fun d tail hsuffix => h d tail (hsuffix.trans (List.suffix_cons c front))]
      rfl

/-- What stands in front of all replacements was there before. -/
theorem prefix_of_prefix_replaceAll (hp : p <+: replaceAll m put s) (hput : put ≠ [])
    (hfree : ∀ d ∈ put.head?, d ∉ p) : p <+: s := by
  induction s generalizing p with
  | nil => exact hp
  | cons c s ih =>
      cases p with
      | nil => exact List.nil_prefix
      | cons d p =>
          cases hm : m (c :: s) with
          | some rest =>
              obtain ⟨e, tail, rfl⟩ := List.exists_cons_of_ne_nil hput
              rw [replaceAll_cons_of_some hm, List.cons_append] at hp
              obtain ⟨rfl, -⟩ := List.cons_prefix_cons.mp hp
              exact (hfree d rfl List.mem_cons_self).elim
          | none =>
              rw [replaceAll_cons_of_none hm] at hp
              obtain ⟨rfl, htail⟩ := List.cons_prefix_cons.mp hp
              refine List.cons_prefix_cons.mpr ⟨rfl, ih htail fun e he hmem => ?_⟩
              exact hfree e he (List.mem_cons_of_mem _ hmem)

/-- The first character is one of the text or of a replacement. -/
theorem head?_replaceAll (hput : put ≠ []) (hc : (replaceAll m put s).head? = some c) :
    s.head? = some c ∨ put.head? = some c := by
  cases s with
  | nil => cases hc
  | cons d s =>
      cases hm : m (d :: s) with
      | some rest =>
          obtain ⟨e, tail, rfl⟩ := List.exists_cons_of_ne_nil hput
          rw [replaceAll_cons_of_some hm] at hc
          exact .inr hc
      | none =>
          rw [replaceAll_cons_of_none hm] at hc
          exact .inl hc

end Replace
