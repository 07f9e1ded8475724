/-
# `Lib.SqlCase` — conditions and `CASE` expressions of a query

A column may be null, a comparison with a null is neither true nor false, and
the connectives work on the three truth values.  A `CASE` takes the first branch
whose condition is true; one that is unknown is passed over like a false one.
So a condition counts through `Condition.holds` alone, and `holds` commutes with
the connectives: `holds_and`, `holds_or`, and `holds_joinAnd`, `holds_joinOr`
for a joined list.
-/
import Mathlib.Data.Int.Notation
import Mathlib.Order.Defs.LinearOrder

namespace Sql

/-- `none` is unknown. -/
abbrev Truth := Option Bool

def Truth.and : Truth → Truth → Truth
  | some false, _ => some false
  | _, some false => some false
  | some true, some true => some true
  | _, _ => none

def Truth.or : Truth → Truth → Truth
  | some true, _ => some true
  | _, some true => some true
  | some false, some false => some false
  | _, _ => none

/-- A condition on the rows of `ρ`. -/
inductive Condition (ρ : Type*)
  | test (truth : ρ → Truth)
  | and (left right : Condition ρ)
  | or (left right : Condition ρ)

namespace Condition

variable {ρ α : Type*} {row : ρ} {p q : Condition ρ} {ps : List (Condition ρ)}

/-- `column >= value`. -/
def ge [LE α] [DecidableLE α] (column : ρ → Option α) (value : α) : Condition ρ :=
  .test fun row => (column row).map fun x => decide (value ≤ x)

def truth : Condition ρ → ρ → Truth
  | test truth, row => truth row
  | and p q, row => (p.truth row).and (q.truth row)
  | or p q, row => (p.truth row).or (q.truth row)

/-- The condition is true, and not only unknown. -/
def holds (p : Condition ρ) (row : ρ) : Bool := p.truth row == some true

@[simp] theorem holds_ge [LE α] [DecidableLE α] {column : ρ → Option α} {value : α} :
    (ge column value).holds row = (column row).any fun x => decide (value ≤ x) := by
  show ((column row).map (fun x => decide (value ≤ x)) == some true) = _
  cases column row with
  | none => rfl
  | some x => exact Bool.eq_iff_iff.mpr (by simp)

@[simp] theorem holds_and : (p.and q).holds row = (p.holds row && q.holds row) := by
  show ((p.truth row).and (q.truth row) == some true) =
    ((p.truth row == some true) && (q.truth row == some true))
  generalize p.truth row = s, q.truth row = t
  rcases s with _ | _ | _ <;> rcases t with _ | _ | _ <;> rfl

@[simp] theorem holds_or : (p.or q).holds row = (p.holds row || q.holds row) := by
  show ((p.truth row).or (q.truth row) == some true) =
    ((p.truth row == some true) || (q.truth row == some true))
  generalize p.truth row = s, q.truth row = t
  rcases s with _ | _ | _ <;> rcases t with _ | _ | _ <;> rfl

/-! ## Joined conditions -/

/-- The conditions with a connective between them; there is nothing to write for none. -/
def joinWith (connective : Condition ρ → Condition ρ → Condition ρ) :
    List (Condition ρ) → Option (Condition ρ)
  | [] => none
  | p :: ps => some (ps.foldl connective p)

/-- Only the empty list has no join. -/
theorem exists_joinWith (connective : Condition ρ → Condition ρ → Condition ρ) (h : ps ≠ []) :
    ∃ p, joinWith connective ps = some p := by
  cases ps with
  | nil => exact absurd rfl h
  | cons p ps => exact ⟨_, rfl⟩

theorem holds_foldl_and (ps : List (Condition ρ)) (p : Condition ρ) :
    (ps.foldl and p).holds row = (p.holds row && ps.all (·.holds row)) := by
  induction ps generalizing p with
  | nil => exact (Bool.and_true _).symm
  | cons q ps ih => rw [List.foldl_cons, ih, holds_and, List.all_cons, Bool.and_assoc]

theorem holds_foldl_or (ps : List (Condition ρ)) (p : Condition ρ) :
    (ps.foldl or p).holds row = (p.holds row || ps.any (·.holds row)) := by
  induction ps generalizing p with
  | nil => exact (Bool.or_false _).symm
  | cons q ps ih => rw [List.foldl_cons, ih, holds_or, List.any_cons, Bool.or_assoc]

theorem holds_joinAnd (h : joinWith and ps = some p) :
    p.holds row = ps.all (·.holds row) := by
  cases ps with
  | nil => cases h
  | cons q ps =>
    cases h
    exact holds_foldl_and ps q

theorem holds_joinOr (h : joinWith or ps = some p) :
    p.holds row = ps.any (·.holds row) := by
  cases ps with
  | nil => cases h
  | cons q ps =>
    cases h
    exact holds_foldl_or ps q

end Condition

/-! ## Expressions -/

/-- An expression with an integer value. -/
inductive Expr (ρ : Type*)
  | column (read : ρ → Option ℤ)
  | literal (value : ℤ)
  | mul (left right : Expr ρ)
  | caseWhen (branches : List (Condition ρ × ℤ)) (otherwise : ℤ)

variable {ρ : Type*}

/-- The first branch whose condition is true. -/
def firstTrue (branches : List (Condition ρ × ℤ)) (row : ρ) : Option ℤ :=
  (branches.find? (·.1.holds row)).map Prod.snd

/-- `none` is the null that a product with a null is. -/
def Expr.value : Expr ρ → ρ → Option ℤ
  | column read, row => read row
  | literal n, _ => some n
  | mul a b, row => (a.value row).bind fun x => (b.value row).map (x * ·)
  | caseWhen branches otherwise, row => some ((firstTrue branches row).getD otherwise)

/-- Where each entry becomes a branch that holds when the entry passes, the first branch that
holds is that of the first entry that passes. -/
theorem firstTrue_mapM {ι : Type*} {f : ι → Option (Condition ρ × ℤ)} {result : ι → ℤ}
    {passes : ρ → ι → Bool} {xs : List ι}
    (h : ∀ x ∈ xs, ∃ p, f x = some (p, result x) ∧ ∀ row, p.holds row = passes row x) :
    ∃ branches, xs.mapM f = some branches ∧
      ∀ row, firstTrue branches row = (xs.find? (passes row)).map result := by
  induction xs with
  | nil => exact ⟨[], rfl, fun row => rfl⟩
  | cons x xs ih =>
    obtain ⟨p, hp, hholds⟩ := h x List.mem_cons_self
    obtain ⟨branches, hbranches, hfirst⟩ := ih fun y hy => h y (List.mem_cons_of_mem _ hy)
    refine ⟨(p, result x) :: branches, ?_, fun row => ?_⟩
    · rw [List.mapM_cons, hp, hbranches]
      rfl
    · have hrest := hfirst row
      unfold firstTrue at hrest ⊢
      rw [List.find?_cons, List.find?_cons, hholds]
      cases passes row x with
      | true => rfl
      | false => exact hrest

end Sql
