/-
# `Lib.Chained` — entries that carry a value from one to the next

An entry of a ledger says which value it found and which one it left.  A list
of entries is linked from `b` to `c` if the first found `b`, each other one
found what the one before it left, and the last left `c`.  Linked lists are put
together end to end (`linked_append`).
-/
import Mathlib.Data.List.Basic

namespace Chained

variable {ε β : Type*} (found left : ε → β)

/-- The entries, oldest first, lead from `b` to `c`. -/
def Linked : β → List ε → β → Prop
  | b, [], c => b = c
  | b, e :: es, c => found e = b ∧ Linked (left e) es c

variable {found left} {b c : β} {e : ε} {es es' : List ε}

@[simp] theorem linked_nil : Linked found left b [] c ↔ b = c := Iff.rfl

@[simp] theorem linked_cons :
    Linked found left b (e :: es) c ↔ found e = b ∧ Linked found left (left e) es c := Iff.rfl

theorem linked_append :
    Linked found left b (es ++ es') c ↔
      ∃ m, Linked found left b es m ∧ Linked found left m es' c := by
  induction es generalizing b with
  | nil =>
    constructor
    · intro h
      exact ⟨b, rfl, h⟩
    · rintro ⟨m, rfl, h⟩
      exact h
  | cons e es ih =>
    rw [List.cons_append, linked_cons, ih]
    constructor
    · rintro ⟨hfound, m, hes, hes'⟩
      exact ⟨m, ⟨hfound, hes⟩, hes'⟩
    · rintro ⟨m, ⟨hfound, hes⟩, hes'⟩
      exact ⟨hfound, m, hes, hes'⟩

/-- One more entry, that finds the last value. -/
theorem Linked.concat (h : Linked found left b es c) (hfound : found e = c) :
    Linked found left b (es ++ [e]) (left e) :=
  linked_append.mpr ⟨c, h, hfound, rfl⟩

end Chained
