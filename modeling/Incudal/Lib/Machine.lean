/-
# `Lib.Machine` — runs of a guarded transition system

A system is a partial step function on labelled steps: `step s i = some t`
says that step `i` is enabled in `s` and leads to `t`.  A guard `ok s i`
restricts which enabled steps a run takes; with the trivial guard `free` every
run is admitted.  `Reach step ok s t`: `t` is reached from `s` by guarded
steps.

The one proof rule is `Reach.invariant`: what holds at the start and survives
each guarded step holds of every state reached.  Runs given as a list of
labels are executed by `exec`; `reach_of_exec` turns such an execution into a
run, which is how a concrete run is exhibited.
-/
import Mathlib.Logic.Basic
import Mathlib.Data.Option.Basic

namespace Machine

variable {σ ι : Type*}

/-- The guard that admits every step. -/
def free : σ → ι → Prop := fun _ _ => True

/-- States reached from `s` by enabled steps that meet the guard. -/
inductive Reach (step : σ → ι → Option σ) (ok : σ → ι → Prop) (s : σ) : σ → Prop
  | refl : Reach step ok s s
  | tail {t u : σ} {i : ι} :
      Reach step ok s t → ok t i → step t i = some u → Reach step ok s u

variable {step : σ → ι → Option σ} {ok ok' : σ → ι → Prop} {s t u : σ}

/-- The invariant rule: it holds at the start, each guarded step keeps it. -/
theorem Reach.invariant {P : σ → Prop} (h : Reach step ok s t) (h0 : P s)
    (hstep : ∀ {t u : σ} {i : ι}, P t → ok t i → step t i = some u → P u) : P t := by
  induction h with
  | refl => exact h0
  | tail _ hok hs ih => exact hstep ih hok hs

/-- A run under a guard is a run under any weaker guard. -/
theorem Reach.mono (h : Reach step ok s t) (hok : ∀ t i, ok t i → ok' t i) :
    Reach step ok' s t := by
  induction h with
  | refl => exact .refl
  | tail _ hi hs ih => exact .tail ih (hok _ _ hi) hs

theorem Reach.trans (h : Reach step ok s t) (h' : Reach step ok t u) : Reach step ok s u := by
  induction h' with
  | refl => exact h
  | tail _ hi hs ih => exact .tail ih hi hs

/-- The execution of a list of labels, from the left. -/
def exec (step : σ → ι → Option σ) : σ → List ι → Option σ
  | s, [] => some s
  | s, i :: is =>
      match step s i with
      | none => none
      | some t => exec step t is

/-- An execution is a run under a guard that follows, at each of its labels,
from something that the execution keeps. -/
theorem reach_of_exec_of {P : σ → Prop} {is : List ι} (h : exec step s is = some t) (h0 : P s)
    (hok : ∀ s, ∀ i ∈ is, P s → ok s i)
    (hstep : ∀ s t, ∀ i ∈ is, P s → step s i = some t → P t) : Reach step ok s t := by
  induction is generalizing s with
  | nil =>
      simp only [exec, Option.some.injEq] at h
      exact h ▸ .refl
  | cons i is ih =>
      simp only [exec] at h
      cases hs : step s i with
      | none => simp [hs] at h
      | some u =>
          simp only [hs] at h
          have hi : i ∈ i :: is := List.mem_cons_self
          refine (Reach.tail .refl (hok s i hi h0) hs).trans
            (ih h (hstep s u i hi h0 hs) ?_ ?_)
          · exact fun v j hj => hok v j (List.mem_cons_of_mem _ hj)
          · exact fun v v' j hj => hstep v v' j (List.mem_cons_of_mem _ hj)

/-- An execution is an unguarded run. -/
theorem reach_of_exec {is : List ι} (h : exec step s is = some t) : Reach step free s t :=
  reach_of_exec_of (P := fun _ => True) h trivial (fun _ _ _ _ => trivial)
    fun _ _ _ _ _ _ => trivial

/-- The steps that meet a guard one can evaluate. -/
def guarded (step : σ → ι → Option σ) (okb : σ → ι → Bool) (s : σ) (i : ι) : Option σ :=
  if okb s i then step s i else none

/-- The execution of guarded steps is a run under the guard. -/
theorem reach_of_exec_guarded {okb : σ → ι → Bool} {is : List ι}
    (h : exec (guarded step okb) s is = some t) :
    Reach step (fun s i => okb s i = true) s t := by
  induction is generalizing s with
  | nil =>
      simp only [exec, Option.some.injEq] at h
      exact h ▸ .refl
  | cons i is ih =>
      simp only [exec] at h
      cases hs : guarded step okb s i with
      | none => simp [hs] at h
      | some u =>
          simp only [hs] at h
          unfold guarded at hs
          split at hs
          · rename_i hok
            have hfirst : Reach step (fun s i => okb s i = true) s u := .tail .refl hok hs
            exact hfirst.trans (ih h)
          · cases hs

end Machine
