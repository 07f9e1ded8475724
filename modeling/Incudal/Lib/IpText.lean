/-
# `Lib.IpText` — addresses of both versions of the protocol, as text

A quad is four decimal numerals without leading zeros, below 256.  An address of
the sixth version is eight groups of up to four hexadecimal digits; the last two
may be written as a quad, and one run of groups that are zero may be left out
between two colons.  The texts here are in lower case.

Reading gives the number that the text stands for.  What reading a text that
begins `::ffff:` gives is `readV6_mappedPrefix`: the number has `ffff` above its
last two groups just when two groups follow (`mapped_iff`).
-/
import Incudal.Lib.GroupedText
import Mathlib.Tactic.IntervalCases

namespace IpText

open GroupedText (readNumeral readNumeral_spec digitValue ungroup ungroup_cons ungroup_lt
  of_mem_intercalate le_of_readNumeral_cons foldlM_shiftIn_isSome)

/-! ## Reading -/

/-- A numeral of a quad. -/
def readOctet (cs : List Char) : Option ℕ :=
  match readNumeral 10 cs with
  | some n => if n < 256 ∧ (cs.head? = some '0' → cs = ['0']) then some n else none
  | none => none

def readV4 (t : List Char) : Option ℕ :=
  match (t.splitOn '.').mapM readOctet with
  | some [a, b, c, d] => some (((a * 256 + b) * 256 + c) * 256 + d)
  | _ => none

def isGroup (cs : List Char) : Bool :=
  1 ≤ cs.length && cs.length ≤ 4 && cs.all fun c => c.isDigit || 'a' ≤ c && c ≤ 'f'

def readGroup (cs : List Char) : Option ℕ :=
  if isGroup cs then readNumeral 16 cs else none

/-- The groups of a text; the last may be a quad, which is two. -/
def readUnits : List (List Char) → Option (List ℕ)
  | [] => some []
  | [last] =>
      match readGroup last with
      | some u => some [u]
      | none => (readV4 last).map fun n => [n / 65536, n % 65536]
  | group :: groups => do
      let u ← readGroup group
      let us ← readUnits groups
      some (u :: us)

/-- The text before the first two colons, and the text after them. -/
def splitDouble : List Char → Option (List Char × List Char)
  | ':' :: ':' :: rest => some ([], rest)
  | c :: rest => (splitDouble rest).map fun parts => (c :: parts.1, parts.2)
  | [] => none

/-- The groups before and after a run that is left out. -/
def readSide (read : List (List Char) → Option (List ℕ)) (t : List Char) : Option (List ℕ) :=
  if t = [] then some [] else read (t.splitOn ':')

def readV6 (t : List Char) : Option ℕ :=
  match splitDouble t with
  | none => do
      let us ← readUnits (t.splitOn ':')
      if us.length = 8 then some (ungroup 65536 us) else none
  | some (left, right) => do
      let us ← readSide (·.mapM readGroup) left
      let vs ← readSide readUnits right
      if us.length + vs.length ≤ 7 then
        some (ungroup 65536 (us ++ List.replicate (8 - us.length - vs.length) 0 ++ vs))
      else none

/-! ## Groups and quads -/

variable {t : List Char} {n u : ℕ} {us : List ℕ} {gs : List (List Char)}

theorem readOctet_spec (h : readOctet t = some n) :
    n < 256 ∧ readNumeral 10 t = some n ∧ (t.head? = some '0' → t = ['0']) := by
  unfold readOctet at h
  split at h
  · rename_i hread
    split at h
    · rename_i hok
      obtain rfl := Option.some.inj h
      exact ⟨hok.1, hread, hok.2⟩
    · cases h
  · cases h

theorem isDigit_of_digitValue {c : Char} (h : ∃ d < 10, digitValue c = some d) :
    c.isDigit = true := by
  obtain ⟨d, hd, hc⟩ := h
  unfold digitValue at hc
  split at hc
  · rename_i hrange
    simp only [Char.isDigit, Bool.and_eq_true, decide_eq_true_eq]
    exact hrange
  · split at hc
    · obtain rfl := Option.some.inj hc
      omega
    · split at hc
      · obtain rfl := Option.some.inj hc
        omega
      · cases hc

theorem digitValue_ne_zero {c : Char} (h : c ≠ '0') : digitValue c ≠ some 0 := by
  intro hc
  unfold digitValue at hc
  split at hc
  · rename_i hrange
    have hle : c.toNat ≤ '0'.toNat := Nat.sub_eq_zero_iff_le.mp (Option.some.inj hc)
    exact h (Char.le_antisymm hle hrange.1)
  · split at hc
    · cases hc
    · split at hc <;> cases hc

/-- A numeral of a quad has one to three digits. -/
theorem readOctet_digits (h : readOctet t = some n) :
    1 ≤ t.length ∧ t.length ≤ 3 ∧ ∀ c ∈ t, c.isDigit = true := by
  obtain ⟨hlt, hread, hzero⟩ := readOctet_spec h
  obtain ⟨-, hne, hdigits⟩ := readNumeral_spec hread
  refine ⟨List.length_pos_iff.mpr hne, ?_, fun c hc => isDigit_of_digitValue (hdigits c hc)⟩
  obtain ⟨c, cs, rfl⟩ := List.exists_cons_of_ne_nil hne
  by_cases hc : c = '0'
  · rw [hzero (congrArg some hc)]
    decide
  · have hle := le_of_readNumeral_cons hread (digitValue_ne_zero hc)
    by_contra hlong
    have hcs : 3 ≤ cs.length := by
      rw [List.length_cons] at hlong
      omega
    have : 10 ^ 3 ≤ 10 ^ cs.length := Nat.pow_le_pow_right (by decide) hcs
    omega

theorem readOctet_toDigits (h : n < 256) : readOctet (Nat.toDigits 10 n) = some n := by
  have hall : ∀ k < 256, readOctet (Nat.toDigits 10 k) = some k := by decide +kernel
  exact hall n h

theorem exists_octet {parts : List (List Char)} {octets : List ℕ}
    (h : parts.mapM readOctet = some octets) :
    parts.length = octets.length ∧ (∀ p ∈ parts, ∃ k, readOctet p = some k) ∧
      ∀ k ∈ octets, k < 256 := by
  induction parts generalizing octets with
  | nil =>
      obtain rfl := Option.some.inj h
      exact ⟨rfl, nofun, nofun⟩
  | cons p parts ih =>
      rw [List.mapM_cons] at h
      obtain ⟨k, hk, hrest⟩ := Option.bind_eq_some_iff.mp h
      obtain ⟨ks, hks, hcons⟩ := Option.bind_eq_some_iff.mp hrest
      obtain rfl := Option.some.inj hcons
      obtain ⟨hlen, hparts, hlt⟩ := ih hks
      exact ⟨congrArg (· + 1) hlen, List.forall_mem_cons.mpr ⟨⟨k, hk⟩, hparts⟩,
        List.forall_mem_cons.mpr ⟨(readOctet_spec hk).1, hlt⟩⟩

theorem readV4_parts (h : readV4 t = some n) :
    n < 2 ^ 32 ∧ (t.splitOn '.').length = 4 ∧ ∀ p ∈ t.splitOn '.', ∃ k, readOctet p = some k := by
  unfold readV4 at h
  split at h
  · rename_i a b c d hoctets
    obtain rfl := Option.some.inj h
    obtain ⟨hlen, hparts, hlt⟩ := exists_octet hoctets
    simp only [List.forall_mem_cons] at hlt
    exact ⟨by omega, hlen, hparts⟩
  · cases h

/-- A quad is made of digits and dots, and has dots. -/
theorem readV4_chars (h : readV4 t = some n) :
    '.' ∈ t ∧ ∀ c ∈ t, c = '.' ∨ (digitValue c).isSome := by
  obtain ⟨-, hlen, hparts⟩ := readV4_parts h
  constructor
  · by_contra hdot
    rw [List.splitOn_eq_singleton hdot] at hlen
    cases hlen
  · intro c hc
    have hjoin : ['.'].intercalate (t.splitOn '.') = t := List.intercalate_splitOn '.'
    rw [← hjoin] at hc
    refine (of_mem_intercalate hc).imp_right ?_
    rintro ⟨p, hp, hcp⟩
    obtain ⟨k, hk⟩ := hparts p hp
    obtain ⟨d, -, hd⟩ := (readNumeral_spec (readOctet_spec hk).2.1).2.2 c hcp
    exact hd ▸ rfl

theorem colon_not_mem_of_readV4 (h : readV4 t = some n) : ':' ∉ t := by
  intro hcolon
  exact absurd ((readV4_chars h).2 _ hcolon) (by decide)

theorem readGroup_spec (h : readGroup t = some u) :
    u < 65536 ∧ isGroup t = true ∧ ∀ c ∈ t, (digitValue c).isSome := by
  unfold readGroup at h
  split at h
  · rename_i hgroup
    obtain ⟨hlt, -, hdigits⟩ := readNumeral_spec h
    have hlen : t.length ≤ 4 := by
      simp only [isGroup, Bool.and_eq_true, decide_eq_true_eq] at hgroup
      exact hgroup.1.2
    refine ⟨hlt.trans_le ?_, hgroup, fun c hc => ?_⟩
    swap
    · obtain ⟨d, -, hd⟩ := hdigits c hc
      exact hd ▸ rfl
    calc 16 ^ t.length ≤ 16 ^ 4 := Nat.pow_le_pow_right (by decide) hlen
      _ = 65536 := rfl
  · cases h

theorem readGroup_of_isGroup (h : isGroup t = true) : ∃ u, readGroup t = some u := by
  have hshape := h
  simp only [isGroup, Bool.and_eq_true, Bool.or_eq_true, decide_eq_true_eq, List.all_eq_true]
    at hshape
  have hne : t ≠ [] := List.ne_nil_of_length_pos hshape.1.1
  rw [readGroup, if_pos h, readNumeral, if_neg hne]
  refine Option.isSome_iff_exists.mp (foldlM_shiftIn_isSome fun c hc => ?_)
  have hnat : ∀ a b : Char, a ≤ b → a.toNat ≤ b.toNat := fun a b hab => hab
  have hdigit : c.isDigit = true → '0' ≤ c ∧ c ≤ '9' := by
    intro hd
    simp only [Char.isDigit, Bool.and_eq_true, decide_eq_true_eq] at hd
    exact hd
  unfold digitValue
  split
  · rename_i hrange
    refine ⟨_, ?_, rfl⟩
    have := hnat _ _ hrange.2
    have h9 : '9'.toNat = 57 := rfl
    have h0 : '0'.toNat = 48 := rfl
    omega
  · rename_i hnot
    have hletter := (hshape.2 c hc).resolve_left fun hd => hnot (hdigit hd)
    rw [if_pos hletter]
    refine ⟨_, ?_, rfl⟩
    have := hnat _ _ hletter.2
    have hf : 'f'.toNat = 102 := rfl
    have ha : 'a'.toNat = 97 := rfl
    omega

/-- A quad is no group. -/
theorem readGroup_of_readV4 (h : readV4 t = some n) : readGroup t = none := by
  cases hgroup : readGroup t with
  | none => rfl
  | some u => exact absurd ((readGroup_spec hgroup).2.2 _ (readV4_chars h).1) (by decide)

theorem readUnits_quad (h : readV4 t = some n) :
    readUnits [t] = some [n / 65536, n % 65536] := by
  rw [readUnits, readGroup_of_readV4 h, h]
  rfl

theorem readUnits_cons {g g' : List Char} :
    readUnits (g :: g' :: gs) =
      (readGroup g).bind fun u => (readUnits (g' :: gs)).bind fun us => some (u :: us) := rfl

theorem readUnits_spec (h : readUnits gs = some us) :
    gs.length ≤ us.length ∧ ∀ u ∈ us, u < 65536 := by
  induction gs generalizing us with
  | nil =>
      obtain rfl := Option.some.inj h
      exact ⟨Nat.le_refl _, nofun⟩
  | cons g gs ih =>
      cases gs with
      | nil =>
          unfold readUnits at h
          split at h
          · rename_i u hu
            obtain rfl := Option.some.inj h
            exact ⟨Nat.le_refl _, by simpa using (readGroup_spec hu).1⟩
          · obtain ⟨n, hn, rfl⟩ := Option.map_eq_some_iff.mp h
            have hlt := (readV4_parts hn).1
            refine ⟨by simp, ?_⟩
            simp only [List.forall_mem_cons]
            exact ⟨by omega, by omega, nofun⟩
      | cons g' gs =>
          rw [readUnits_cons] at h
          obtain ⟨u, hu, hrest⟩ := Option.bind_eq_some_iff.mp h
          obtain ⟨vs, hvs, hcons⟩ := Option.bind_eq_some_iff.mp hrest
          obtain rfl := Option.some.inj hcons
          obtain ⟨hlen, hlt⟩ := ih hvs
          exact ⟨Nat.succ_le_succ hlen, List.forall_mem_cons.mpr ⟨(readGroup_spec hu).1, hlt⟩⟩

/-- Two units are a quad or two groups. -/
theorem readUnits_pair (h : readUnits gs = some us) (hlen : us.length = 2) :
    (∃ last n, gs = [last] ∧ readV4 last = some n ∧ ungroup 65536 us = n) ∨
      ∃ g g' u v, gs = [g, g'] ∧ readGroup g = some u ∧ readGroup g' = some v ∧ us = [u, v] := by
  match gs, h with
  | [], h =>
      obtain rfl := Option.some.inj h
      cases hlen
  | [last], h =>
      unfold readUnits at h
      split at h
      · obtain rfl := Option.some.inj h
        cases hlen
      · obtain ⟨n, hn, rfl⟩ := Option.map_eq_some_iff.mp h
        refine .inl ⟨last, n, rfl, hn, ?_⟩
        simp only [ungroup, List.foldl_cons, List.foldl_nil]
        omega
  | [g, g'], h =>
      rw [readUnits_cons] at h
      obtain ⟨u, hu, hrest⟩ := Option.bind_eq_some_iff.mp h
      obtain ⟨vs, hvs, hcons⟩ := Option.bind_eq_some_iff.mp hrest
      obtain rfl := Option.some.inj hcons
      unfold readUnits at hvs
      split at hvs
      · rename_i v hv
        obtain rfl := Option.some.inj hvs
        exact .inr ⟨g, g', u, v, rfl, hu, hv, rfl⟩
      · obtain ⟨n, -, rfl⟩ := Option.map_eq_some_iff.mp hvs
        cases hlen
  | _ :: _ :: _ :: _, h =>
      have := (readUnits_spec h).1
      simp only [List.length_cons] at this
      omega

/-! ## Writing a quad -/

def writeV4 (octets : List ℕ) : List Char := ['.'].intercalate (octets.map (Nat.toDigits 10))

theorem readV4_writeV4 {a b c d : ℕ} (h : ∀ k ∈ [a, b, c, d], k < 256) :
    readV4 (writeV4 [a, b, c, d]) = some (((a * 256 + b) * 256 + c) * 256 + d) := by
  have hfree : ∀ l ∈ [a, b, c, d].map (Nat.toDigits 10), '.' ∉ l := by
    intro l hl
    obtain ⟨k, -, rfl⟩ := List.mem_map.mp hl
    exact GroupedText.not_mem_toDigits (by decide) (by decide) (by decide)
  simp only [List.forall_mem_cons] at h
  have hread : ([a, b, c, d].map (Nat.toDigits 10)).mapM readOctet = some [a, b, c, d] := by
    simp [readOctet_toDigits, h]
  rw [readV4, writeV4, List.splitOn_intercalate '.' hfree (by simp), hread]

/-! ## The prefix of mapped addresses -/

/-- What is read after `::ffff:`. -/
theorem readV6_mappedPrefix :
    readV6 ("::ffff:".toList ++ t) = (readUnits (t.splitOn ':')).bind fun us =>
      if us.length ≤ 6 then some (0xffff * 65536 ^ us.length + ungroup 65536 us) else none := by
  have hcolon : ':' ∉ "ffff".toList := by decide
  have hsplit : ("ffff:".toList ++ t).splitOn ':' = "ffff".toList :: t.splitOn ':' :=
    List.splitOn_append_cons_self_of_not_mem hcolon t
  have hzeros : ∀ k vs, ungroup 65536 (List.replicate k 0 ++ vs) = ungroup 65536 vs := by
    intro k vs
    induction k with
    | zero => rfl
    | succ k ih =>
        rw [List.replicate_succ, List.cons_append, ungroup_cons, ih, Nat.zero_mul, Nat.zero_add]
  have hright : readSide readUnits ("ffff:".toList ++ t) =
      (readUnits (t.splitOn ':')).map (0xffff :: ·) := by
    rw [readSide, if_neg (by simp), hsplit]
    cases hgroups : t.splitOn ':' with
    | nil => exact absurd hgroups (List.splitOn_ne_nil _ _)
    | cons g gs =>
        have hffff : readGroup "ffff".toList = some 0xffff := by decide
        rw [readUnits_cons, hffff]
        cases readUnits (g :: gs) <;> rfl
  have hdouble : splitDouble ("::ffff:".toList ++ t) = some ([], "ffff:".toList ++ t) := rfl
  rw [readV6, hdouble]
  simp only [hright, Option.bind_eq_bind]
  cases readUnits (t.splitOn ':') with
  | none => rfl
  | some us =>
      simp only [readSide, if_true, Option.bind_some, Option.map_some, List.length_nil,
        List.length_cons, List.nil_append, Nat.zero_add, hzeros, ungroup_cons]
      by_cases hlen : us.length ≤ 6
      · rw [if_pos hlen, if_pos (by omega)]
      · rw [if_neg hlen, if_neg (by omega)]

/-- The number has `ffff` above its last two groups when two groups follow. -/
theorem mapped_iff (hlt : ∀ u ∈ us, u < 65536) (hlen : us.length ≤ 6) :
    (0xffff * 65536 ^ us.length + ungroup 65536 us) / 2 ^ 32 = 0xffff ↔ us.length = 2 := by
  have hbound := ungroup_lt hlt
  generalize us.length = k at *
  generalize ungroup 65536 us = m at *
  constructor
  · intro h
    interval_cases k <;> omega
  · rintro rfl
    omega

end IpText
