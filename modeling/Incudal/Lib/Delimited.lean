/-
# `Lib.Delimited` — parts of a text with a separator between them

A part that lacks the separator is read off again: it ends where the separator
first stands (`append_cons_inj`).  Numerals are such parts, and a number is
determined by its numeral (`toDigits_inj`); so are the names and the values of a
list of fields, which is determined by its text (`fields_inj`).  What stands
after a separator stands in one of the parts (`cons_infix_intercalate`).
-/
import Mathlib.Data.List.Infix
import Mathlib.Data.Nat.Digits.Defs

namespace Delimited

variable {α : Type*} {sep : α} {part part' rest rest' : List α}

/-- Two texts that begin with a part and the separator agree only in both. -/
theorem append_cons_inj (h : sep ∉ part) (h' : sep ∉ part') :
    part ++ sep :: rest = part' ++ sep :: rest' ↔ part = part' ∧ rest = rest' := by
  constructor
  · intro he
    induction part generalizing part' with
    | nil =>
        cases part' with
        | nil => exact ⟨rfl, (List.cons.inj he).2⟩
        | cons a part' => exact absurd ((List.cons.inj he).1 ▸ List.mem_cons_self) h'
    | cons a part ih =>
        cases part' with
        | nil => exact absurd ((List.cons.inj he).1 ▸ List.mem_cons_self) h
        | cons b part' =>
            obtain ⟨rfl, htail⟩ := List.cons.inj he
            obtain ⟨rfl, hrest⟩ := ih (fun hm => h (List.mem_cons_of_mem _ hm))
              (fun hm => h' (List.mem_cons_of_mem _ hm)) htail
            exact ⟨rfl, hrest⟩
  · rintro ⟨rfl, rfl⟩
    rfl

/-- A character that is no digit is in no numeral. -/
theorem not_mem_toDigits {c : Char} (hc : c.isDigit = false) (n : ℕ) : c ∉ Nat.toDigits 10 n := by
  intro hmem
  rw [Nat.isDigit_of_mem_toDigits (by decide) (by decide) hmem] at hc
  cases hc

theorem toDigits_inj {m n : ℕ} : Nat.toDigits 10 m = Nat.toDigits 10 n ↔ m = n := by
  constructor
  · intro h
    simpa using congrArg (Nat.ofDigitChars 10 · 0) h
  · rintro rfl
    rfl

/-- A name and a value, with `eq` between them. -/
def field (eq : α) (f : List α × List α) : List α := f.1 ++ eq :: f.2

variable {eq : α} {fs gs : List (List α × List α)} {a b s t : List α} {parts : List (List α)}

/-- A text of fields gives the fields back: a name ends at the first `eq`, a value
at the first `sep` after it. -/
theorem fields_inj (hfs : ∀ f ∈ fs, eq ∉ f.1 ∧ sep ∉ f.2) (hgs : ∀ g ∈ gs, eq ∉ g.1 ∧ sep ∉ g.2)
    (h : [sep].intercalate (fs.map (field eq)) = [sep].intercalate (gs.map (field eq))) :
    fs = gs := by
  induction fs generalizing gs with
  | nil =>
      match gs, h with
      | [], _ => rfl
      | [g], h => simp [field] at h
      | g :: g' :: gs, h => simp [field] at h
  | cons f fs ih =>
      obtain ⟨name, value⟩ := f
      obtain ⟨hfirst, hrest⟩ := List.forall_mem_cons.mp hfs
      obtain ⟨hname, hvalue⟩ : eq ∉ name ∧ sep ∉ value := hfirst
      cases gs with
      | nil => cases fs <;> simp [field] at h
      | cons g gs =>
          obtain ⟨name', value'⟩ := g
          obtain ⟨hfirst', hrest'⟩ := List.forall_mem_cons.mp hgs
          obtain ⟨hname', hvalue'⟩ : eq ∉ name' ∧ sep ∉ value' := hfirst'
          cases fs with
          | nil =>
              cases gs with
              | nil =>
                  simp only [List.map_cons, List.map_nil, List.intercalate_singleton, field] at h
                  obtain ⟨rfl, rfl⟩ := (append_cons_inj hname hname').mp h
                  rfl
              | cons g' gs =>
                  -- the longer text has a separator where this one has none
                  simp only [List.map_cons, List.map_nil, List.intercalate_singleton,
                    List.intercalate_cons_cons, field, List.append_assoc, List.cons_append,
                    List.nil_append] at h
                  obtain ⟨-, rfl⟩ := (append_cons_inj hname hname').mp h
                  exact absurd (List.mem_append_right _ List.mem_cons_self) hvalue
          | cons f' fs =>
              cases gs with
              | nil =>
                  simp only [List.map_cons, List.map_nil, List.intercalate_singleton,
                    List.intercalate_cons_cons, field, List.append_assoc, List.cons_append,
                    List.nil_append] at h
                  obtain ⟨-, rfl⟩ := (append_cons_inj hname hname').mp h
                  exact absurd (List.mem_append_right _ List.mem_cons_self) hvalue'
              | cons g' gs =>
                  simp only [List.map_cons, List.intercalate_cons_cons, field, List.append_assoc,
                    List.cons_append, List.nil_append] at h
                  obtain ⟨rfl, hvalues⟩ := (append_cons_inj hname hname').mp h
                  obtain ⟨rfl, htails⟩ := (append_cons_inj hvalue hvalue').mp hvalues
                  rw [ih hrest hrest' (by simpa only [List.map_cons, field] using htails)]

theorem prefix_of_prefix_append_cons (hs : sep ∉ s) (h : s <+: part ++ sep :: rest) :
    s <+: part := by
  induction s generalizing part with
  | nil => exact List.nil_prefix
  | cons c s ih =>
      obtain ⟨hc, hs⟩ := not_or.mp (List.mem_cons.not.mp hs)
      cases part with
      | nil => exact absurd (List.cons_prefix_cons.mp h).1.symm hc
      | cons d part =>
          obtain ⟨rfl, htail⟩ := List.cons_prefix_cons.mp h
          exact List.cons_prefix_cons.mpr ⟨rfl, ih hs htail⟩

/-- A text without the separator stands on one side of it. -/
theorem infix_append_cons (ht : sep ∉ t) (h : t <:+: a ++ sep :: b) : t <:+: a ∨ t <:+: b := by
  induction a with
  | nil =>
      rcases List.infix_cons_iff.mp h with h | h
      · have hpre : t <+: [] := prefix_of_prefix_append_cons ht h
        exact .inl hpre.isInfix
      · exact .inr h
  | cons c a ih =>
      rcases List.infix_cons_iff.mp h with h | h
      · have hpre : t <+: c :: a := prefix_of_prefix_append_cons ht h
        exact .inl hpre.isInfix
      · exact (ih h).imp_left List.infix_cons

/-- A text that begins with the separator stands before the next one or from it on. -/
theorem cons_infix_append_cons (hs : sep ∉ s) (h : sep :: s <:+: a ++ sep :: b) :
    sep :: s <:+: a ∨ sep :: s <:+: sep :: b := by
  induction a with
  | nil => exact .inr h
  | cons c a ih =>
      rcases List.infix_cons_iff.mp h with h | h
      · obtain ⟨rfl, htail⟩ := List.cons_prefix_cons.mp h
        exact .inl (List.cons_prefix_cons.mpr ⟨rfl, prefix_of_prefix_append_cons hs htail⟩).isInfix
      · exact (ih h).imp_left List.infix_cons

theorem infix_of_cons_infix_append (ha : sep ∉ a) (h : sep :: s <:+: a ++ b) :
    sep :: s <:+: b := by
  induction a with
  | nil => exact h
  | cons c a ih =>
      obtain ⟨hc, ha⟩ := not_or.mp (List.mem_cons.not.mp ha)
      rcases List.infix_cons_iff.mp h with h | h
      · exact absurd (List.cons_prefix_cons.mp h).1 hc
      · exact ih ha h

theorem infix_intercalate (h : part ∈ parts) :
    sep :: part <:+: sep :: [sep].intercalate parts := by
  induction parts with
  | nil => exact absurd h List.not_mem_nil
  | cons first parts ih =>
      cases parts with
      | nil =>
          obtain rfl := List.mem_singleton.mp h
          rw [List.intercalate_singleton]
      | cons second parts =>
          rw [List.intercalate_cons_cons, List.append_assoc]
          rcases List.mem_cons.mp h with rfl | h
          · exact (List.prefix_append (sep :: part) _).isInfix
          · exact (ih h).trans (List.suffix_append (sep :: first) _).isInfix

/-- What stands after a separator begins a part or stands within one. -/
theorem cons_infix_intercalate (hs : sep ∉ s) (hne : s ≠ [])
    (h : sep :: s <:+: sep :: [sep].intercalate parts) :
    ∃ p ∈ parts, s <+: p ∨ sep :: s <:+: p := by
  induction parts with
  | nil =>
      rcases List.infix_cons_iff.mp h with h | h
      · exact absurd (List.prefix_nil.mp (List.cons_prefix_cons.mp h).2) hne
      · exact absurd (List.infix_nil.mp h) (List.cons_ne_nil _ _)
  | cons first parts ih =>
      have hfirst : ∀ rest, sep :: s <:+: sep :: (first ++ sep :: rest) →
          (∃ p ∈ first :: parts, s <+: p ∨ sep :: s <:+: p) ∨ sep :: s <:+: sep :: rest := by
        intro rest h
        rcases List.infix_cons_iff.mp h with h | h
        · refine .inl ⟨first, List.mem_cons_self, .inl ?_⟩
          exact prefix_of_prefix_append_cons hs (List.cons_prefix_cons.mp h).2
        · refine (cons_infix_append_cons hs h).imp_left fun h => ?_
          exact ⟨first, List.mem_cons_self, .inr h⟩
      cases parts with
      | nil =>
          rw [List.intercalate_singleton] at h
          refine ⟨first, List.mem_cons_self, ?_⟩
          rcases List.infix_cons_iff.mp h with h | h
          · exact .inl (List.cons_prefix_cons.mp h).2
          · exact .inr h
      | cons second parts =>
          rw [List.intercalate_cons_cons, List.append_assoc] at h
          rcases hfirst _ h with h | h
          · exact h
          · obtain ⟨p, hp, hstands⟩ := ih h
            exact ⟨p, List.mem_cons_of_mem _ hp, hstands⟩

end Delimited
