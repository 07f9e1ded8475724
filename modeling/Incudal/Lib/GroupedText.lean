/-
# `Lib.GroupedText` — a number as groups of digits

`groups` cuts a number into a fixed number of groups, each below a bound, the
highest first; `ungroup` puts them together again.  `groupText` writes each group
as a numeral, with a separator between two, and `readGroups` reads such a text
(`readGroups_groupText`).  Bases are sixteen at most, as `Nat.digitChar` has it.
-/
import Mathlib.Algebra.Order.Ring.Nat
import Mathlib.Tactic.Ring

namespace GroupedText

/-! ## Numerals -/

/-- The value of a digit, whatever its case. -/
def digitValue (c : Char) : Option ℕ :=
  if '0' ≤ c ∧ c ≤ '9' then some (c.toNat - '0'.toNat)
  else if 'a' ≤ c ∧ c ≤ 'f' then some (c.toNat - 'a'.toNat + 10)
  else if 'A' ≤ c ∧ c ≤ 'F' then some (c.toNat - 'A'.toNat + 10)
  else none

/-- One digit more. -/
def shiftIn (b n : ℕ) (c : Char) : Option ℕ := do
  let d ← digitValue c
  if d < b then some (n * b + d) else none

def readNumeral (b : ℕ) (cs : List Char) : Option ℕ :=
  if cs = [] then none else cs.foldlM (shiftIn b) 0

variable {b d n k B : ℕ} {sep : Char}

theorem digitValue_digitChar (h : d < 16) : digitValue (Nat.digitChar d) = some d := by
  have hall : ∀ e < 16, digitValue (Nat.digitChar e) = some e := by decide
  exact hall d h

theorem shiftIn_digitChar (hb : b ≤ 16) (hd : d < b) :
    shiftIn b n (Nat.digitChar d) = some (n * b + d) := by
  simp only [shiftIn, digitValue_digitChar (hd.trans_le hb), Option.bind_eq_bind,
    Option.bind_some, if_pos hd]

/-- Induction on the number, its last digit taken off. -/
theorem foldlM_toDigits (hb : 1 < b) (hb' : b ≤ 16) :
    (Nat.toDigits b n).foldlM (shiftIn b) 0 = some n := by
  induction n using Nat.strong_induction_on with
  | _ n ih =>
      rw [Nat.toDigits_eq_if hb]
      split
      · rename_i hlt
        rw [List.foldlM_cons, shiftIn_digitChar hb' hlt, Nat.zero_mul, Nat.zero_add]
        rfl
      · rename_i hge
        have hpos : 0 < n := by omega
        have hrest : (Nat.toDigits b (n / b)).foldlM (shiftIn b) 0 = some (n / b) :=
          ih _ (Nat.div_lt_self hpos hb)
        have hlast : shiftIn b (n / b) (Nat.digitChar (n % b)) = some n := by
          rw [shiftIn_digitChar hb' (Nat.mod_lt n (by omega)), Nat.div_add_mod']
        rw [List.foldlM_append, hrest]
        show ([Nat.digitChar (n % b)].foldlM (shiftIn b) (n / b)) = some n
        rw [List.foldlM_cons, hlast]
        rfl

theorem readNumeral_toDigits (hb : 1 < b) (hb' : b ≤ 16) :
    readNumeral b (Nat.toDigits b n) = some n := by
  rw [readNumeral, if_neg Nat.toDigits_ne_nil, foldlM_toDigits hb hb']

theorem exists_of_mem_toDigits (hb : 1 < b) {c : Char} (h : c ∈ Nat.toDigits b n) :
    ∃ d < b, c = Nat.digitChar d := by
  induction n using Nat.strong_induction_on with
  | _ n ih =>
      rw [Nat.toDigits_eq_if hb] at h
      split at h
      · rename_i hlt
        exact ⟨n, hlt, List.mem_singleton.mp h⟩
      · rename_i hge
        rcases List.mem_append.mp h with hrest | hlast
        · exact ih _ (Nat.div_lt_self (by omega) hb) hrest
        · exact ⟨n % b, Nat.mod_lt n (by omega), List.mem_singleton.mp hlast⟩

/-- What is no digit stands in no numeral. -/
theorem not_mem_toDigits (hb : 1 < b) (hb' : b ≤ 16) (hsep : digitValue sep = none) :
    sep ∉ Nat.toDigits b n := by
  intro hmem
  obtain ⟨d, hd, rfl⟩ := exists_of_mem_toDigits hb hmem
  rw [digitValue_digitChar (hd.trans_le hb')] at hsep
  cases hsep

/-- What a numeral adds to a number, and that it is made of digits. -/
theorem foldlM_shiftIn {cs : List Char} {m : ℕ} (h : cs.foldlM (shiftIn b) n = some m) :
    n * b ^ cs.length ≤ m ∧ m < (n + 1) * b ^ cs.length ∧
      ∀ c ∈ cs, ∃ d < b, digitValue c = some d := by
  induction cs generalizing n with
  | nil =>
      obtain rfl := Option.some.inj h
      exact ⟨by simp, by simp, nofun⟩
  | cons c cs ih =>
      rw [List.foldlM_cons] at h
      obtain ⟨k, hk, hrest⟩ := Option.bind_eq_some_iff.mp h
      obtain ⟨d, hd, hshift⟩ := Option.bind_eq_some_iff.mp hk
      obtain ⟨hle, hlt, hdigits⟩ := ih hrest
      split at hshift
      · rename_i hdb
        obtain rfl := Option.some.inj hshift
        refine ⟨?_, ?_, List.forall_mem_cons.mpr ⟨⟨d, hdb, hd⟩, hdigits⟩⟩
        · calc n * b ^ (cs.length + 1) = n * b * b ^ cs.length := by rw [pow_succ]; ring
            _ ≤ (n * b + d) * b ^ cs.length := Nat.mul_le_mul_right _ (Nat.le_add_right _ _)
            _ ≤ m := hle
        · calc m < (n * b + d + 1) * b ^ cs.length := hlt
            _ ≤ (n * b + b) * b ^ cs.length := Nat.mul_le_mul_right _ (by omega)
            _ = (n + 1) * b ^ (cs.length + 1) := by rw [pow_succ]; ring
      · cases hshift

/-- A text of digits is a numeral. -/
theorem foldlM_shiftIn_isSome {cs : List Char} (h : ∀ c ∈ cs, ∃ d < b, digitValue c = some d) :
    (cs.foldlM (shiftIn b) n).isSome := by
  induction cs generalizing n with
  | nil => rfl
  | cons c cs ih =>
      obtain ⟨⟨d, hdb, hd⟩, hcs⟩ := List.forall_mem_cons.mp h
      have hshift : shiftIn b n c = some (n * b + d) := by
        simp only [shiftIn, hd, Option.bind_eq_bind, Option.bind_some, if_pos hdb]
      rw [List.foldlM_cons, hshift]
      exact ih hcs

theorem readNumeral_spec {cs : List Char} {m : ℕ} (h : readNumeral b cs = some m) :
    m < b ^ cs.length ∧ cs ≠ [] ∧ ∀ c ∈ cs, ∃ d < b, digitValue c = some d := by
  unfold readNumeral at h
  split at h
  · cases h
  · rename_i hne
    obtain ⟨-, hlt, hdigits⟩ := foldlM_shiftIn h
    exact ⟨by rwa [Nat.zero_add, one_mul] at hlt, hne, hdigits⟩

/-- A numeral that does not begin with a zero is as long as its number is large. -/
theorem le_of_readNumeral_cons {c : Char} {cs : List Char} {m : ℕ}
    (h : readNumeral b (c :: cs) = some m) (hc : digitValue c ≠ some 0) : b ^ cs.length ≤ m := by
  rw [readNumeral, if_neg (List.cons_ne_nil _ _), List.foldlM_cons] at h
  obtain ⟨k, hk, hrest⟩ := Option.bind_eq_some_iff.mp h
  obtain ⟨d, hd, hshift⟩ := Option.bind_eq_some_iff.mp hk
  split at hshift
  · obtain rfl := Option.some.inj hshift
    have hpos : 1 ≤ 0 * b + d := by
      have : d ≠ 0 := fun h0 => hc (h0 ▸ hd)
      omega
    calc b ^ cs.length = 1 * b ^ cs.length := (one_mul _).symm
      _ ≤ (0 * b + d) * b ^ cs.length := Nat.mul_le_mul_right _ hpos
      _ ≤ m := (foldlM_shiftIn hrest).1
  · cases hshift

/-! ## Groups -/

def groups (B : ℕ) : ℕ → ℕ → List ℕ
  | 0, _ => []
  | k + 1, n => groups B k (n / B) ++ [n % B]

def ungroup (B : ℕ) (gs : List ℕ) : ℕ := gs.foldl (fun n g => n * B + g) 0

theorem length_groups : (groups B k n).length = k := by
  induction k generalizing n with
  | zero => rfl
  | succ k ih => rw [groups, List.length_append, ih, List.length_singleton]

theorem lt_of_mem_groups (hB : 0 < B) {g : ℕ} (h : g ∈ groups B k n) : g < B := by
  induction k generalizing n with
  | zero => cases h
  | succ k ih =>
      rcases List.mem_append.mp h with hrest | hlast
      · exact ih hrest
      · rw [List.mem_singleton.mp hlast]
        exact Nat.mod_lt n hB

theorem foldl_ungroup (gs : List ℕ) (m : ℕ) :
    gs.foldl (fun acc g => acc * B + g) m = m * B ^ gs.length + ungroup B gs := by
  induction gs generalizing m with
  | nil => simp [ungroup]
  | cons g gs ih =>
      rw [ungroup, List.foldl_cons, List.foldl_cons, ih, ih (0 * B + g), List.length_cons, pow_succ]
      ring

theorem ungroup_cons (g : ℕ) (gs : List ℕ) :
    ungroup B (g :: gs) = g * B ^ gs.length + ungroup B gs := by
  rw [ungroup, List.foldl_cons, Nat.zero_mul, Nat.zero_add, foldl_ungroup]

theorem ungroup_lt {gs : List ℕ} (h : ∀ g ∈ gs, g < B) : ungroup B gs < B ^ gs.length := by
  induction gs with
  | nil => exact Nat.one_pos
  | cons g gs ih =>
      obtain ⟨hg, hgs⟩ := List.forall_mem_cons.mp h
      have hlt := ih hgs
      rw [ungroup_cons, List.length_cons, pow_succ, Nat.mul_comm (B ^ gs.length)]
      calc g * B ^ gs.length + ungroup B gs < g * B ^ gs.length + B ^ gs.length := by omega
        _ = (g + 1) * B ^ gs.length := by ring
        _ ≤ B * B ^ gs.length := Nat.mul_le_mul_right _ hg

theorem ungroup_groups (h : n < B ^ k) : ungroup B (groups B k n) = n := by
  induction k generalizing n with
  | zero =>
      rw [pow_zero, Nat.lt_one_iff] at h
      exact h.symm
  | succ k ih =>
      have hrest : n / B < B ^ k := Nat.div_lt_of_lt_mul (by rwa [pow_succ, Nat.mul_comm] at h)
      have := ih hrest
      rw [ungroup] at this ⊢
      rw [groups, List.foldl_append, this]
      exact Nat.div_add_mod' n B

/-! ## Texts -/

def groupText (b B k : ℕ) (sep : Char) (n : ℕ) : List Char :=
  [sep].intercalate ((groups B k n).map (Nat.toDigits b))

/-- The groups of a text, when each is a numeral. -/
def splitGroups (b : ℕ) (sep : Char) (cs : List Char) : Option (List ℕ) :=
  (cs.splitOn sep).mapM (readNumeral b)

/-- A text of `k` groups, each below `B`. -/
def readGroups (b B k : ℕ) (sep : Char) (cs : List Char) : Option ℕ := do
  let gs ← splitGroups b sep cs
  if gs.length = k ∧ ∀ g ∈ gs, g < B then some (ungroup B gs) else none

theorem mapM_readNumeral (hb : 1 < b) (hb' : b ≤ 16) (gs : List ℕ) :
    (gs.map (Nat.toDigits b)).mapM (readNumeral b) = some gs := by
  induction gs with
  | nil => rfl
  | cons g gs ih =>
      rw [List.map_cons, List.mapM_cons, readNumeral_toDigits hb hb', ih]
      rfl

theorem splitGroups_groupText (hb : 1 < b) (hb' : b ≤ 16) (hk : 0 < k)
    (hsep : digitValue sep = none) :
    splitGroups b sep (groupText b B k sep n) = some (groups B k n) := by
  have hne : (groups B k n).map (Nat.toDigits b) ≠ [] := by
    intro h
    have := congrArg List.length h
    rw [List.length_map, length_groups, List.length_nil] at this
    omega
  have hfree : ∀ l ∈ (groups B k n).map (Nat.toDigits b), sep ∉ l := by
    intro l hl
    obtain ⟨g, -, rfl⟩ := List.mem_map.mp hl
    exact not_mem_toDigits hb hb' hsep
  rw [splitGroups, groupText, List.splitOn_intercalate sep hfree hne, mapM_readNumeral hb hb']

theorem readGroups_groupText (hb : 1 < b) (hb' : b ≤ 16) (hB : 0 < B) (hk : 0 < k)
    (hsep : digitValue sep = none) (h : n < B ^ k) :
    readGroups b B k sep (groupText b B k sep n) = some n := by
  have hgood : (groups B k n).length = k ∧ ∀ g ∈ groups B k n, g < B :=
    ⟨length_groups, fun _ hg => lt_of_mem_groups hB hg⟩
  rw [readGroups, splitGroups_groupText hb hb' hk hsep]
  simp only [Option.bind_eq_bind, Option.bind_some, if_pos hgood, ungroup_groups h]

theorem of_mem_intercalate {c : Char} {ls : List (List Char)} (h : c ∈ [sep].intercalate ls) :
    c = sep ∨ ∃ l ∈ ls, c ∈ l := by
  induction ls with
  | nil => cases h
  | cons l ls ih =>
      cases ls with
      | nil =>
          rw [List.intercalate_singleton] at h
          exact .inr ⟨l, List.mem_cons_self, h⟩
      | cons l' ls =>
          rw [List.intercalate_cons_cons, List.mem_append, List.mem_append,
            List.mem_singleton] at h
          rcases h with (hl | hsep) | hrest
          · exact .inr ⟨l, List.mem_cons_self, hl⟩
          · exact .inl hsep
          · rcases ih hrest with hsep | ⟨l₀, hmem, hc⟩
            · exact .inl hsep
            · exact .inr ⟨l₀, List.mem_cons_of_mem l hmem, hc⟩

/-- A character that is neither digit nor separator stands in no such text. -/
theorem not_mem_groupText (hb : 1 < b) (hb' : b ≤ 16) {c : Char} (hc : digitValue c = none)
    (hne : c ≠ sep) : c ∉ groupText b B k sep n := by
  intro hmem
  rcases of_mem_intercalate hmem with hsep | ⟨l, hl, hcl⟩
  · exact hne hsep
  · obtain ⟨g, -, rfl⟩ := List.mem_map.mp hl
    exact not_mem_toDigits hb hb' hc hcl

end GroupedText
