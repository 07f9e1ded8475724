/-
# `Lib.Selection` — the strict ones, or else the loose ones

A loop that adds up the elements that meet a strict condition, and at its end
those that meet a loose one where none met the strict one.  The order of the
elements plays no part (`selected_perm`), and two selections with the same
members are one up to the order (`selected_perm_of_mem`).
-/
import Mathlib

namespace Selection

variable {α β τ : Type*} {strict loose strict' loose' : α → Bool} {a : α} {l l' : List α}

def selected (strict loose : α → Bool) (l : List α) : List α :=
  if l.any strict then l.filter strict else l.filter loose

theorem mem_selected : a ∈ selected strict loose l ↔
    a ∈ l ∧ (strict a = true ∨ (∀ b ∈ l, ¬ strict b = true) ∧ loose a = true) := by
  simp only [selected]
  split
  · rename_i hany
    obtain ⟨b, hb, hstrict⟩ := List.any_eq_true.mp hany
    rw [List.mem_filter]
    exact and_congr_right fun _ => ⟨.inl, fun h => h.resolve_right fun hnone => hnone.1 b hb hstrict⟩
  · rename_i hany
    have hnone : ∀ b ∈ l, ¬ strict b = true := fun b hb h => hany (List.any_eq_true.mpr ⟨b, hb, h⟩)
    rw [List.mem_filter]
    exact and_congr_right fun ha => ⟨fun h => .inr ⟨hnone, h⟩, fun h =>
      (h.resolve_left (hnone a ha)).2⟩

theorem selected_perm (h : l.Perm l') :
    (selected strict loose l).Perm (selected strict loose l') := by
  simp only [selected, h.any_eq]
  split
  · exact h.filter _
  · exact h.filter _

theorem selected_map (f : β → α) (l : List β) :
    selected strict loose (l.map f) = (selected (strict ∘ f) (loose ∘ f) l).map f := by
  simp only [selected, List.any_map, List.filter_map]
  split <;> rfl

theorem selected_congr (hstrict : ∀ a ∈ l, strict a = strict' a)
    (hloose : ∀ a ∈ l, loose a = loose' a) :
    selected strict loose l = selected strict' loose' l := by
  have hany : l.any strict = l.any strict' := by
    rw [Bool.eq_iff_iff, List.any_eq_true, List.any_eq_true]
    exact exists_congr fun a => and_congr_right fun ha => by rw [hstrict a ha]
  simp only [selected, hany, List.filter_congr hstrict, List.filter_congr hloose]

/-! ## The loop -/

/-- The state of the loop: the totals, the loose ones so far, whether a strict one was met. -/
structure LoopState (α τ : Type*) where
  totals : τ
  fallback : List α := []
  hasStrict : Bool := false

def step (strict loose : α → Bool) (add : τ → α → τ) (s : LoopState α τ) (a : α) : LoopState α τ :=
  if strict a then { s with totals := add s.totals a, hasStrict := true }
  else if loose a then { s with fallback := s.fallback ++ [a] }
  else s

def collect (strict loose : α → Bool) (add : τ → α → τ) (zero : τ) (l : List α) : τ :=
  let s := l.foldl (step strict loose add) { totals := zero }
  if s.hasStrict then s.totals else s.fallback.foldl add s.totals

theorem foldl_step (strict loose : α → Bool) (add : τ → α → τ) (s : LoopState α τ) (l : List α) :
    let s' := l.foldl (step strict loose add) s
    s'.totals = (l.filter strict).foldl add s.totals ∧
      s'.hasStrict = (s.hasStrict || l.any strict) ∧
      s'.fallback = s.fallback ++ l.filter fun a => !strict a && loose a := by
  induction l generalizing s with
  | nil => simp
  | cons a l ih =>
      have hstep := ih (step strict loose add s a)
      cases hs : strict a with
      | true =>
          have hs' : step strict loose add s a
              = { s with totals := add s.totals a, hasStrict := true } := by simp [step, hs]
          simpa [hs, hs'] using hstep
      | false =>
          cases hl : loose a with
          | true =>
              have hs' : step strict loose add s a = { s with fallback := s.fallback ++ [a] } := by
                simp [step, hs, hl]
              simpa [hs, hl, hs'] using hstep
          | false =>
              have hs' : step strict loose add s a = s := by simp [step, hs, hl]
              simpa [hs, hl, hs'] using hstep

/-- The loop adds up what is selected. -/
theorem collect_eq (add : τ → α → τ) (zero : τ) (l : List α) :
    collect strict loose add zero l = (selected strict loose l).foldl add zero := by
  obtain ⟨htotals, hstrict, hfallback⟩ := foldl_step strict loose add { totals := zero } l
  simp only [collect, htotals, hstrict, hfallback, selected, Bool.false_or, List.nil_append]
  split
  · rfl
  · rename_i hany
    have hnone : ∀ a ∈ l, strict a = false := fun a ha => by
      simpa using fun h => hany (List.any_eq_true.mpr ⟨a, ha, h⟩)
    rw [List.filter_eq_nil_iff.mpr fun a ha => by simp [hnone a ha]]
    refine congrArg _ (List.filter_congr fun a ha => ?_)
    rw [hnone a ha, Bool.not_false, Bool.true_and]

/-! ## Agreement -/

/-- An element of a list without repetition, weighed alone. -/
theorem sum_indicator [DecidableEq α] (hnodup : l.Nodup) (a : α) :
    (l.map fun b => if b = a then 1 else 0).sum = if a ∈ l then 1 else 0 := by
  induction l with
  | nil => rfl
  | cons b l ih =>
      obtain ⟨hb, hnodup⟩ := List.nodup_cons.mp hnodup
      rw [List.map_cons, List.sum_cons, ih hnodup]
      by_cases hba : b = a
      · subst hba
        simp [hb]
      · simp [hba, Ne.symm hba]

theorem nodup_selected (hnodup : l.Nodup) : (selected strict loose l).Nodup := by
  simp only [selected]
  split
  · exact hnodup.filter _
  · exact hnodup.filter _

/-- Two selections that have the same members of a list without repetition are one up to order. -/
theorem selected_perm_of_mem (hnodup : l.Nodup)
    (h : ∀ a ∈ l, a ∈ selected strict loose l ↔ a ∈ selected strict' loose' l) :
    (selected strict loose l).Perm (selected strict' loose' l) := by
  refine (List.perm_ext_iff_of_nodup (nodup_selected hnodup) (nodup_selected hnodup)).mpr ?_
  intro a
  by_cases ha : a ∈ l
  · exact h a ha
  · exact iff_of_false (fun hs => ha (mem_selected.mp hs).1) fun hs => ha (mem_selected.mp hs).1

end Selection
