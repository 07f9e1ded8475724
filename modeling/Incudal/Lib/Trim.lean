/-
# `Lib.Trim` — a list without what it begins and ends with

`trimBy p` drops the elements with `p` at both ends.  A core with no such
element is what is left exactly of the lists that have it between two runs of
them (`trimBy_eq_iff`), so that two predicates can be compared by the runs.
-/
import Mathlib.Data.List.DropRight
import Mathlib.Data.List.TakeWhile

namespace Trim

variable {α : Type*} {p q : α → Bool} {l core : List α}

def trimBy (p : α → Bool) (l : List α) : List α :=
  ((l.dropWhile p).reverse.dropWhile p).reverse

/-- A run of elements with `p` at the head is dropped, and no more. -/
theorem dropWhile_append_of_all {run rest : List α} (hrun : ∀ a ∈ run, p a = true) :
    (run ++ rest).dropWhile p = rest.dropWhile p := by
  induction run with
  | nil => rfl
  | cons a run ih =>
      rw [List.cons_append, List.dropWhile_cons_of_pos (hrun a List.mem_cons_self)]
      exact ih fun b hb => hrun b (List.mem_cons_of_mem _ hb)

/-- What is dropped is a run of elements with `p`. -/
theorem exists_dropWhile (p : α → Bool) (l : List α) :
    ∃ run, (∀ a ∈ run, p a = true) ∧ l = run ++ l.dropWhile p :=
  ⟨l.takeWhile p, fun _ ha => List.mem_takeWhile_imp ha, (List.takeWhile_append_dropWhile).symm⟩

theorem dropWhile_eq_self (hcore : ∀ a ∈ core, ¬ p a = true) : core.dropWhile p = core := by
  cases core with
  | nil => rfl
  | cons a core => exact List.dropWhile_cons_of_neg (hcore a List.mem_cons_self)

theorem dropWhile_core_append {run : List α} (hne : core ≠ []) (hcore : ∀ a ∈ core, ¬ p a = true) :
    (core ++ run).dropWhile p = core ++ run := by
  obtain ⟨a, rest, rfl⟩ := List.exists_cons_of_ne_nil hne
  exact List.dropWhile_cons_of_neg (hcore a List.mem_cons_self)

/-- A list is what it is trimmed to, between two runs. -/
theorem exists_trimBy (p : α → Bool) (l : List α) :
    ∃ front back, l = front ++ (trimBy p l ++ back) ∧ (∀ a ∈ front, p a = true) ∧
      ∀ a ∈ back, p a = true := by
  obtain ⟨front, hfront, hl⟩ := exists_dropWhile p l
  obtain ⟨back, hback, hrest⟩ := exists_dropWhile p (l.dropWhile p).reverse
  refine ⟨front, back.reverse, ?_, hfront, fun a ha => hback a (List.mem_reverse.mp ha)⟩
  have hmiddle : l.dropWhile p = trimBy p l ++ back.reverse := by
    rw [← List.reverse_reverse (l.dropWhile p), hrest, List.reverse_append]
    rfl
  rw [← hmiddle]
  exact hl

/-- A run at the head is trimmed off first. -/
theorem trimBy_append_of_all {run rest : List α} (hrun : ∀ a ∈ run, p a = true) :
    trimBy p (run ++ rest) = trimBy p rest := by
  rw [trimBy, dropWhile_append_of_all hrun, trimBy]

/-- A head that is no such element is not dropped from the end. -/
theorem rdropWhile_cons_of_neg {a : α} {rest : List α} (ha : ¬ p a = true) :
    (a :: rest).rdropWhile p = a :: rest.rdropWhile p := by
  rw [List.rdropWhile, List.reverse_cons, List.dropWhile_append]
  split
  · rename_i hall
    rw [List.dropWhile_cons_of_neg ha, List.rdropWhile, List.isEmpty_iff.mp hall]
    rfl
  · rw [List.reverse_append, List.reverse_singleton, List.singleton_append, List.rdropWhile]

/-- It stays, and the rest loses what it ends with. -/
theorem trimBy_cons_of_neg {a : α} {rest : List α} (ha : ¬ p a = true) :
    trimBy p (a :: rest) = a :: rest.rdropWhile p := by
  rw [trimBy, List.dropWhile_cons_of_neg ha]
  exact rdropWhile_cons_of_neg ha

/-- The lists that are trimmed to a core without blanks. -/
theorem trimBy_eq_iff (hne : core ≠ []) (hcore : ∀ a ∈ core, ¬ p a = true) :
    trimBy p l = core ↔
      ∃ front back, l = front ++ core ++ back ∧ (∀ a ∈ front, p a = true) ∧
        ∀ a ∈ back, p a = true := by
  constructor
  · intro h
    obtain ⟨front, back, hl, hends⟩ := exists_trimBy p l
    exact ⟨front, back, by rwa [List.append_assoc, ← h], hends⟩
  · rintro ⟨front, back, rfl, hfront, hback⟩
    have hreverse : core.reverse ≠ [] := fun h => hne (List.reverse_eq_nil_iff.mp h)
    rw [trimBy, List.append_assoc, dropWhile_append_of_all hfront,
      dropWhile_core_append hne hcore, List.reverse_append,
      dropWhile_append_of_all fun a ha => hback a (List.mem_reverse.mp ha),
      dropWhile_eq_self fun a ha => hcore a (List.mem_reverse.mp ha), List.reverse_reverse]

/-- Trimming by `p`, which is part of `q`, leaves the same core as trimming by `q` if and only if no
other element of `q` is in the list. -/
theorem trimBy_eq_iff_of_le (hle : ∀ a, p a = true → q a = true) (hne : core ≠ [])
    (hcore : ∀ a ∈ core, ¬ q a = true) :
    trimBy p l = core ↔ trimBy q l = core ∧ ∀ a ∈ l, q a = true → p a = true := by
  rw [trimBy_eq_iff hne fun a ha hp => hcore a ha (hle a hp), trimBy_eq_iff hne hcore]
  constructor
  · rintro ⟨front, back, rfl, hfront, hback⟩
    refine ⟨⟨front, back, rfl, fun a ha => hle a (hfront a ha), fun a ha => hle a (hback a ha)⟩,
      fun a ha hq => ?_⟩
    rcases List.mem_append.mp ha with ha | ha
    · rcases List.mem_append.mp ha with ha | ha
      · exact hfront a ha
      · exact (hcore a ha hq).elim
    · exact hback a ha
  · rintro ⟨⟨front, back, rfl, hfront, hback⟩, hp⟩
    refine ⟨front, back, rfl, fun a ha => hp a ?_ (hfront a ha), fun a ha => hp a ?_ (hback a ha)⟩
    · exact List.mem_append_left _ (List.mem_append_left _ ha)
    · exact List.mem_append_right _ ha

/-- Nothing is trimmed off a list that neither begins nor ends with such an element. -/
theorem trimBy_eq_self {a b : α} {middle : List α} (ha : ¬ p a = true) (hb : ¬ p b = true)
    (hends : l = a :: middle ∧ l.getLast? = some b) : trimBy p l = l := by
  obtain ⟨hl, hlast⟩ := hends
  obtain ⟨front, hfront⟩ := List.getLast?_eq_some_iff.mp hlast
  have hdrop : l.dropWhile p = l := by
    rw [hl]
    exact List.dropWhile_cons_of_neg ha
  have hdrop' : l.reverse.dropWhile p = l.reverse := by
    rw [hfront, List.reverse_append]
    exact List.dropWhile_cons_of_neg hb
  rw [trimBy, hdrop, hdrop', List.reverse_reverse]

/-- Such an element at the end is trimmed off first. -/
theorem trimBy_concat {a : α} (ha : p a = true) : trimBy p (l ++ [a]) = trimBy p l := by
  unfold trimBy
  rw [List.dropWhile_append]
  split
  · rename_i hall
    rw [List.dropWhile_cons_of_pos ha, List.isEmpty_iff.mp hall]
    rfl
  · rw [List.reverse_append, List.reverse_singleton, List.singleton_append,
      List.dropWhile_cons_of_pos ha]

end Trim
