/-
# `BodyAgreement` — when the panel writes what the agent wrote

The text of a payload is parsed to `goValue payload` (`parses_goText`).  With
well-formed strings, what the panel writes for it is the text of the payload
whose numbers have gone through JavaScript (`stringify_goValue`).  So the two
agree exactly if every string of the payload is UTF-8 and every integer is
printed as itself by JavaScript (`panelBody_eq_iff`): a stray byte is written
as an escape by the agent and as a character by the panel.
-/
import Incudal.AgentBody

namespace Incudal

open Json (Value JsChar commas Parses ParsesString IsNumber)

/-! ## Payloads -/

namespace GoValue

section Collect

variable {α : Type} (leaf : GoValue → List α) (key : List UInt8 → List α)

mutual

/-- What the leaves and the keys of a payload hold. -/
def collect : GoValue → List α
  | .slice items => collectItems items
  | .map entries => collectEntries entries
  | v => leaf v

def collectItems : List GoValue → List α
  | [] => []
  | v :: items => collect v ++ collectItems items

def collectEntries : List (List UInt8 × GoValue) → List α
  | [] => []
  | (k, v) :: entries => key k ++ collect v ++ collectEntries entries

end

variable {leaf key} {items : List GoValue} {entries : List (List UInt8 × GoValue)} {a : α}

theorem mem_collect_slice :
    a ∈ collect leaf key (.slice items) ↔ ∃ v ∈ items, a ∈ collect leaf key v := by
  show a ∈ collectItems leaf key items ↔ _
  induction items with
  | nil => simp [collectItems]
  | cons v items ih => simp [collectItems, ih]

theorem mem_collect_map : a ∈ collect leaf key (.map entries) ↔
    ∃ e ∈ entries, a ∈ key e.1 ∨ a ∈ collect leaf key e.2 := by
  show a ∈ collectEntries leaf key entries ↔ _
  induction entries with
  | nil => simp [collectEntries]
  | cons e entries ih => simp [collectEntries, ih, or_assoc]

end Collect

/-- The strings of a payload, keys included. -/
def strings : GoValue → List (List UInt8) :=
  collect (fun | .string s => [s] | _ => []) fun k => [k]

def ints : GoValue → List ℤ := collect (fun | .int n => [n] | _ => []) fun _ => []

def floats : GoValue → List (List Char) := collect (fun | .float l => [l] | _ => []) fun _ => []

/-- A payload that Go can hold: integers of 64 bits, floats that are printed as
numbers, maps with each key once. -/
inductive WellFormed : GoValue → Prop
  | null : WellFormed .null
  | bool (b : Bool) : WellFormed (.bool b)
  | int {n : ℤ} (low : -2 ^ 63 ≤ n) (high : n < 2 ^ 64) : WellFormed (.int n)
  | float {l : List Char} (number : IsNumber l) : WellFormed (.float l)
  | string (s : List UInt8) : WellFormed (.string s)
  | slice {items : List GoValue} (h : ∀ v ∈ items, v.WellFormed) : WellFormed (.slice items)
  | map {entries : List (List UInt8 × GoValue)} (distinct : (entries.map Prod.fst).Nodup)
      (h : ∀ e ∈ entries, e.2.WellFormed) : WellFormed (.map entries)

end GoValue

/-! ## Sorting by key -/

section Sorting

variable {α β : Type} {key : α → List UInt8} {l : List α}

theorem sortByKey_map {f : α → β} {key' : β → List UInt8} (h : ∀ a ∈ l, key' (f a) = key a) :
    sortByKey key' (l.map f) = (sortByKey key l).map f := by
  refine (List.map_insertionSort _ _ f l fun a ha b hb => ?_).symm
  rw [h a ha, h b hb]

/-- What is done to the values leaves the order of the entries. -/
theorem sortByKey_entries {γ : Type} (g : β → γ) (l : List (List UInt8 × β)) :
    sortByKey Prod.fst (l.map fun e => (e.1, g e.2))
      = (sortByKey Prod.fst l).map fun e => (e.1, g e.2) :=
  sortByKey_map (f := fun e : List UInt8 × β => (e.1, g e.2)) fun _ _ => rfl

theorem perm_sortByKey : (sortByKey key l).Perm l := List.perm_insertionSort _ l

theorem mem_sortByKey {a : α} : a ∈ sortByKey key l ↔ a ∈ l := perm_sortByKey.mem_iff

theorem pairwise_sortByKey : (sortByKey key l).Pairwise fun a b => key a ≤ key b := by
  have : Std.Total fun a b : α => key a ≤ key b := ⟨fun a b => List.le_total (key a) (key b)⟩
  have : IsTrans α fun a b => key a ≤ key b := ⟨fun _ _ _ => List.le_trans⟩
  exact List.pairwise_insertionSort _ l

theorem sortByKey_of_pairwise (h : l.Pairwise fun a b => key a ≤ key b) : sortByKey key l = l :=
  h.insertionSort_eq

end Sorting

/-! ## The lists of the writers -/

theorem goItems_eq (items : List GoValue) : goItems items = items.map goText := by
  induction items with
  | nil => rfl
  | cons v items ih => rw [goItems, ih, List.map_cons]

theorem goEntries_eq (entries : List (List UInt8 × GoValue)) :
    goEntries entries = entries.map fun e => (e.1, goText e.2) := by
  induction entries with
  | nil => rfl
  | cons e entries ih => rw [goEntries, ih, List.map_cons]

/-- The text of a map, its entries first sorted and then written. -/
theorem goText_map (entries : List (List UInt8 × GoValue)) :
    goText (.map entries) = '{' :: (commas ((sortByKey Prod.fst entries).map fun e =>
      goString e.1 ++ ':' :: goText e.2) ++ ['}']) := by
  rw [goText, goEntries_eq, sortByKey_entries, List.map_map]
  rfl

/-! ## What the agent's text stands for -/

/-- The JavaScript string of a string of bytes. -/
def jsString (s : List UInt8) : List JsChar := (Utf8.decodeLossy s).map .char

mutual

/-- What the panel's parser makes of a payload. -/
def goValue : GoValue → Value
  | .null => .null
  | .bool b => .bool b
  | .int n => .number (decimal n)
  | .float l => .number l
  | .string s => .string (jsString s)
  | .slice items => .array (goValueItems items)
  | .map entries =>
      Json.ofMembers ((sortByKey Prod.fst (goValueEntries entries)).map fun e => (jsString e.1, e.2))

def goValueItems : List GoValue → List Value
  | [] => []
  | v :: items => goValue v :: goValueItems items

def goValueEntries : List (List UInt8 × GoValue) → List (List UInt8 × Value)
  | [] => []
  | (k, v) :: entries => (k, goValue v) :: goValueEntries entries

end

theorem goValueItems_eq (items : List GoValue) : goValueItems items = items.map goValue := by
  induction items with
  | nil => rfl
  | cons v items ih => rw [goValueItems, ih, List.map_cons]

theorem goValueEntries_eq (entries : List (List UInt8 × GoValue)) :
    goValueEntries entries = entries.map fun e => (e.1, goValue e.2) := by
  induction entries with
  | nil => rfl
  | cons e entries ih => rw [goValueEntries, ih, List.map_cons]

theorem goValue_map (entries : List (List UInt8 × GoValue)) :
    goValue (.map entries) = Json.ofMembers ((sortByKey Prod.fst entries).map fun e =>
      (jsString e.1, goValue e.2)) := by
  rw [goValue, goValueEntries_eq, sortByKey_entries, List.map_map]
  rfl

/-! ### Strings -/

theorem hexUnit_control : ∀ n < 32, Json.hexUnit '0' '0' (hexDigits (n / 16)) (hexDigits (n % 16))
    = some n ∧ Json.unitChar n = .char (Char.ofNat n) ∧ Json.isHighSurrogate n = false := by
  decide

theorem goRune_ne_nil (r : Option Char) : goRune r ≠ [] := by
  unfold goRune
  split
  · exact List.cons_ne_nil _ _
  · repeat' split
    all_goals exact List.cons_ne_nil _ _

/-- What the agent writes for a rune is read as its character, and a stray byte
as the replacement character. -/
theorem parseString_goRune (r : Option Char) (f : ℕ) (rest : List Char) :
    Json.parseString (f + 1) (goRune r ++ rest)
      = Json.push (.char (r.getD '\uFFFD')) (Json.parseString f rest) := by
  cases r with
  | none =>
      have hunit : Json.hexUnit 'f' 'f' 'f' 'd' = some 0xFFFD := by decide
      exact Json.parseString_unit hunit (by decide) f rest
  | some c =>
      rw [Option.getD_some]
      simp only [goRune]
      split
      · rename_i h
        rcases h with rfl | rfl
        · exact Json.parseString_escape rfl (by decide) f rest
        · exact Json.parseString_escape rfl (by decide) f rest
      rename_i hquote
      split
      · rename_i h
        exact h ▸ Json.parseString_escape rfl (by decide) f rest
      split
      · rename_i h
        exact h ▸ Json.parseString_escape rfl (by decide) f rest
      split
      · rename_i h
        exact h ▸ Json.parseString_escape rfl (by decide) f rest
      split
      · rename_i h
        exact h ▸ Json.parseString_escape rfl (by decide) f rest
      split
      · rename_i h
        exact h ▸ Json.parseString_escape rfl (by decide) f rest
      split
      · rename_i h
        obtain ⟨hunit, hchar, hhigh⟩ := hexUnit_control c.toNat h
        rw [Json.parseString_unit hunit hhigh, hchar, Char.ofNat_toNat]
      rename_i hcontrol
      split
      · rename_i h
        rcases h with rfl | rfl
        · have hunit : Json.hexUnit '2' '0' '2' '8' = some 0x2028 := by decide
          exact Json.parseString_unit hunit (by decide) f rest
        · have hunit : Json.hexUnit '2' '0' '2' '9' = some 0x2029 := by decide
          exact Json.parseString_unit hunit (by decide) f rest
      · rw [not_or] at hquote
        exact Json.parseString_plain hquote.1 hquote.2 hcontrol f rest

theorem parsesString_goRunes (rs : List (Option Char)) :
    ParsesString (rs.flatMap goRune) (rs.map fun r => .char (r.getD '\uFFFD')) := by
  induction rs with
  | nil => exact ParsesString.nil
  | cons r rs ih =>
      rw [List.flatMap_cons, List.map_cons]
      exact ParsesString.cons (goRune_ne_nil r) (parseString_goRune r) ih

theorem jsString_eq (s : List UInt8) :
    jsString s = (Utf8.runes s).map fun r => .char (r.getD '\uFFFD') := by
  rw [jsString, Utf8.decodeLossy, List.map_map]
  rfl

theorem parsesString_goString (s : List UInt8) :
    ParsesString ((Utf8.runes s).flatMap goRune) (jsString s) :=
  jsString_eq s ▸ parsesString_goRunes (Utf8.runes s)

/-! ### Numbers -/

theorem isDigit_toDigits (n : ℕ) : (Nat.toDigits 10 n).all Char.isDigit = true :=
  List.all_eq_true.mpr fun _ hc => Nat.isDigit_of_mem_toDigits (by decide) (by decide) hc

theorem toDigits_injective : Function.Injective (Nat.toDigits 10) := by
  intro m n h
  have := congrArg (Nat.ofDigitChars 10 · 0) h
  simpa using this

theorem digitChar_ne_zero : ∀ n < 10, n ≠ 0 → Nat.digitChar n ≠ '0' := by decide

/-- A decimal does not start with a zero, unless it is zero. -/
theorem head_toDigits (n : ℕ) (h : n ≠ 0) : (Nat.toDigits 10 n).head? ≠ some '0' := by
  induction n using Nat.strongRecOn with
  | ind n ih =>
      rcases Nat.lt_or_ge n 10 with hlt | hge
      · rw [Nat.toDigits_of_lt_base hlt]
        exact fun heq => digitChar_ne_zero n hlt h (Option.some.inj heq)
      · have hdiv : n / 10 < n := by omega
        have hpos : n / 10 ≠ 0 := by omega
        rw [Nat.toDigits_of_base_le (by decide) hge,
          List.head?_append_of_ne_nil _ Nat.toDigits_ne_nil]
        exact ih _ hdiv hpos

theorem numberChar_of_isDigit {c : Char} (h : c.isDigit = true) : Json.numberChar c = true := by
  simp [Json.numberChar, h]

theorem isUnsigned_toDigits (n : ℕ) : Json.isUnsigned (Nat.toDigits 10 n) = true := by
  have hspan : (Nat.toDigits 10 n ++ []).takeWhile Char.isDigit = Nat.toDigits 10 n ∧
      (Nat.toDigits 10 n ++ []).dropWhile Char.isDigit = [] :=
    Json.span_append (isDigit_toDigits n) nofun
  rw [List.append_nil] at hspan
  have hhead : Nat.toDigits 10 n = ['0'] ∨ (Nat.toDigits 10 n).head? ≠ some '0' := by
    rcases Nat.eq_zero_or_pos n with rfl | hpos
    · exact .inl (Nat.toDigits_zero 10)
    · exact .inr (head_toDigits n hpos.ne')
  simp [Json.isUnsigned, hspan.1, hspan.2, Nat.toDigits_ne_nil, Json.isFraction, Json.isExponent]
  exact hhead

theorem isNumber_toDigits (n : ℕ) : IsNumber (Nat.toDigits 10 n) := by
  refine ⟨?_, List.all_eq_true.mpr fun c hc => ?_⟩
  · unfold Json.isNumber
    split
    · rename_i cs heq
      have := List.all_eq_true.mp (isDigit_toDigits n) '-' (heq ▸ List.mem_cons_self)
      cases this
    · exact isUnsigned_toDigits n
  · exact numberChar_of_isDigit (List.all_eq_true.mp (isDigit_toDigits n) c hc)

theorem isNumber_neg_toDigits (n : ℕ) : IsNumber ('-' :: Nat.toDigits 10 n) := by
  refine ⟨isUnsigned_toDigits n, ?_⟩
  rw [List.all_cons, (isNumber_toDigits n).chars]
  rfl

theorem isNumber_decimal (n : ℤ) : IsNumber (decimal n) := by
  cases n with
  | ofNat n => exact isNumber_toDigits n
  | negSucc n => exact isNumber_neg_toDigits (n + 1)

theorem parses_goText {v : GoValue} (h : v.WellFormed) : Parses (goText v) (goValue v) := by
  induction h with
  | null => exact Parses.null
  | bool b =>
      cases b with
      | true => exact Parses.true
      | false => exact Parses.false
  | @int n low high => exact Parses.number (isNumber_decimal n)
  | float number => exact Parses.number number
  | string s => exact Parses.string (parsesString_goString s)
  | @slice items h ih =>
      rw [goText, goValue, goItems_eq, goValueItems_eq]
      refine Parses.array ?_
      rw [List.forall₂_map_left_iff, List.forall₂_map_right_iff]
      exact List.forall₂_same.mpr ih
  | @map entries distinct h ih =>
      rw [goText_map, goValue_map]
      refine Parses.object ?_
      rw [List.forall₂_map_left_iff, List.forall₂_map_right_iff]
      refine List.forall₂_same.mpr fun e he => ⟨_, goText e.2, ?_, parsesString_goString e.1, ?_⟩
      · simp [goString]
      · exact ih e (mem_sortByKey.mp he)

/-! ## What the panel writes for it -/

section Panel

variable (floatText : List Char → List Char)

theorem stringifyItems_eq (items : List Value) :
    stringifyItems floatText items = items.map (stringifyNormalizedJson floatText) := by
  induction items with
  | nil => rfl
  | cons v items ih => rw [stringifyItems, ih, List.map_cons]

theorem stringifyProperties_eq (ps : List (List JsChar × Value)) :
    stringifyProperties floatText ps
      = ps.map fun p => (p.1, stringifyNormalizedJson floatText p.2) := by
  induction ps with
  | nil => rfl
  | cons p ps ih => rw [stringifyProperties, ih, List.map_cons]

theorem normalizeItems_eq (items : List Value) :
    normalizeItems items = items.map normalizeJsonValue := by
  induction items with
  | nil => rfl
  | cons v items ih => rw [normalizeItems, ih, List.map_cons]

theorem normalizeProperties_eq (ps : List (List JsChar × Value)) :
    normalizeProperties ps = ps.map fun p => (p.1, normalizeJsonValue p.2) := by
  induction ps with
  | nil => rfl
  | cons p ps ih => rw [normalizeProperties, ih, List.map_cons]

mutual

/-- The payload with its numbers as JavaScript prints them. -/
def shown : GoValue → GoValue
  | .int n => .float (numberText floatText (decimal n))
  | .float l => .float (numberText floatText l)
  | .slice items => .slice (shownItems items)
  | .map entries => .map (shownEntries entries)
  | v => v

def shownItems : List GoValue → List GoValue
  | [] => []
  | v :: items => shown v :: shownItems items

def shownEntries : List (List UInt8 × GoValue) → List (List UInt8 × GoValue)
  | [] => []
  | (k, v) :: entries => (k, shown v) :: shownEntries entries

end

theorem shownItems_eq (items : List GoValue) :
    shownItems floatText items = items.map (shown floatText) := by
  induction items with
  | nil => rfl
  | cons v items ih => rw [shownItems, ih, List.map_cons]

theorem shownEntries_eq (entries : List (List UInt8 × GoValue)) :
    shownEntries floatText entries = entries.map fun e => (e.1, shown floatText e.2) := by
  induction entries with
  | nil => rfl
  | cons e entries ih => rw [shownEntries, ih, List.map_cons]

theorem escape_control : ∀ n < 32,
    (['\\', 'u', '0', '0', hexDigits (n / 16), hexDigits (n % 16)]).flatMap escapeSeparator
      = ['\\', 'u', '0', '0', hexDigits (n / 16), hexDigits (n % 16)] := by
  decide

/-- The characters with an escape of their own. -/
def namedEscapes : List Char :=
  ['"', '\\', '\x08', '\x0c', '\n', '\r', '\t', '\u2028', '\u2029']

theorem quote_namedEscapes :
    ∀ c ∈ namedEscapes, (jsonQuote (.char c)).flatMap escapeSeparator = goRune (some c) := by
  have hall : (namedEscapes.all fun c =>
      decide ((jsonQuote (.char c)).flatMap escapeSeparator = goRune (some c))) = true := by decide
  simpa only [List.all_eq_true, decide_eq_true_eq] using hall

/-- For a character the panel writes what the agent writes. -/
theorem quote_eq_goRune (c : Char) :
    (jsonQuote (.char c)).flatMap escapeSeparator = goRune (some c) := by
  by_cases hc : c ∈ namedEscapes
  · exact quote_namedEscapes c hc
  simp only [namedEscapes, List.mem_cons, List.not_mem_nil, or_false, not_or] at hc
  obtain ⟨h₁, h₂, h₃, h₄, h₅, h₆, h₇, h₈, h₉⟩ := hc
  simp only [jsonQuote, goRune, h₁, h₂, h₃, h₄, h₅, h₆, h₇, h₈, h₉, or_self, if_false]
  split
  · rename_i h
    exact escape_control c.toNat h
  · simp [escapeSeparator, h₈, h₉]

theorem stringifyJsonString_eq {s : List UInt8} (h : Utf8.Valid s) :
    stringifyJsonString (jsString s) = goString s := by
  have hrunes : ∀ rs : List (Option Char), none ∉ rs →
      ((rs.map fun r => JsChar.char (r.getD '\uFFFD')).flatMap jsonQuote).flatMap escapeSeparator
        = rs.flatMap goRune := by
    intro rs hrs
    induction rs with
    | nil => rfl
    | cons r rs ih =>
        simp only [List.mem_cons, not_or] at hrs
        cases r with
        | none => exact absurd rfl hrs.1
        | some c =>
            rw [List.map_cons, List.flatMap_cons, List.flatMap_append, ih hrs.2, Option.getD_some,
              quote_eq_goRune, List.flatMap_cons]
  rw [stringifyJsonString, goString, List.flatMap_cons, List.flatMap_append, jsString_eq,
    hrunes _ h]
  rfl

theorem keyBytes_jsString {s : List UInt8} (h : Utf8.Valid s) : keyBytes (jsString s) = s := by
  rw [keyBytes, jsString, List.map_map]
  exact (congrArg Utf8.encode (List.map_id _)).trans (Utf8.encode_decodeLossy h)

theorem jsString_injective {s s' : List UInt8} (h : Utf8.Valid s) (h' : Utf8.Valid s')
    (he : jsString s = jsString s') : s = s' := by
  rw [← keyBytes_jsString h, ← keyBytes_jsString h', he]

theorem valid_of_mem_slice {items : List GoValue}
    (h : ∀ s ∈ (GoValue.slice items).strings, Utf8.Valid s) :
    ∀ v ∈ items, ∀ s ∈ v.strings, Utf8.Valid s :=
  fun v hv s hs => h s (GoValue.mem_collect_slice.mpr ⟨v, hv, hs⟩)

theorem valid_of_mem_map {entries : List (List UInt8 × GoValue)}
    (h : ∀ s ∈ (GoValue.map entries).strings, Utf8.Valid s) :
    ∀ e ∈ entries, Utf8.Valid e.1 ∧ ∀ s ∈ e.2.strings, Utf8.Valid s :=
  fun e he => ⟨h e.1 (GoValue.mem_collect_map.mpr ⟨e, he, .inl (List.mem_singleton_self _)⟩),
    fun s hs => h s (GoValue.mem_collect_map.mpr ⟨e, he, .inr hs⟩)⟩

/-- The panel sorts again what the agent has sorted. -/
theorem sortByKey_jsString {β γ : Type} {entries : List (List UInt8 × β)}
    (hvalid : ∀ e ∈ entries, Utf8.Valid e.1) (g : β → γ) :
    sortByKey (keyBytes ·.1) ((sortByKey Prod.fst entries).map fun e => (jsString e.1, g e.2))
      = (sortByKey Prod.fst entries).map fun e => (jsString e.1, g e.2) := by
  have hsorted : sortByKey (keyBytes ·.1)
      ((sortByKey Prod.fst entries).map fun e => (jsString e.1, g e.2))
        = (sortByKey Prod.fst (sortByKey Prod.fst entries)).map fun e => (jsString e.1, g e.2) :=
    sortByKey_map fun e he => keyBytes_jsString (hvalid e (mem_sortByKey.mp he))
  rw [hsorted, sortByKey_of_pairwise pairwise_sortByKey]

theorem nodup_jsString {β γ : Type} {entries : List (List UInt8 × β)}
    (hvalid : ∀ e ∈ entries, Utf8.Valid e.1) (hn : (entries.map Prod.fst).Nodup) (g : β → γ) :
    (((sortByKey Prod.fst entries).map fun e => (jsString e.1, g e.2)).map Prod.fst).Nodup := by
  have hkeys : ((sortByKey Prod.fst entries).map Prod.fst).Nodup :=
    (perm_sortByKey.map Prod.fst).nodup_iff.mpr hn
  have hcomp : ((sortByKey Prod.fst entries).map fun e => (jsString e.1, g e.2)).map Prod.fst
      = ((sortByKey Prod.fst entries).map Prod.fst).map jsString := by
    rw [List.map_map, List.map_map]
    rfl
  rw [hcomp]
  refine hkeys.map_on fun k hk k' hk' he => ?_
  obtain ⟨e, he₁, rfl⟩ := List.mem_map.mp hk
  obtain ⟨e', he₂, rfl⟩ := List.mem_map.mp hk'
  exact jsString_injective (hvalid e (mem_sortByKey.mp he₁)) (hvalid e' (mem_sortByKey.mp he₂)) he

/-- With well-formed strings the panel writes the payload as the agent does,
but for its numbers. -/
theorem stringify_goValue {v : GoValue} (hv : v.WellFormed)
    (hvalid : ∀ s ∈ v.strings, Utf8.Valid s) :
    stableStringifyAgentBody floatText (goValue v) = goText (shown floatText v) := by
  unfold stableStringifyAgentBody
  induction hv with
  | null => rfl
  | bool b => cases b <;> rfl
  | int low high => rfl
  | float number => rfl
  | string s => exact stringifyJsonString_eq (hvalid s (List.mem_singleton_self _))
  | @slice items h ih =>
      have hitems := valid_of_mem_slice hvalid
      rw [shown, goText, goValue, normalizeJsonValue, stringifyNormalizedJson, stringifyItems_eq,
        normalizeItems_eq, goItems_eq, shownItems_eq, goValueItems_eq, List.map_map, List.map_map,
        List.map_map]
      congr 3
      exact List.map_congr_left fun v hv => ih v hv (hitems v hv)
  | @map entries distinct h ih =>
      have hentries := valid_of_mem_map hvalid
      have hkeys : ∀ e ∈ entries, Utf8.Valid e.1 := fun e he => (hentries e he).1
      rw [goValue_map, Json.ofMembers_of_nodup (nodup_jsString hkeys distinct goValue),
        normalizeJsonValue, normalizeProperties_eq, List.map_map]
      have hsorted := sortByKey_jsString hkeys fun v => normalizeJsonValue (goValue v)
      have hwritten := sortByKey_jsString hkeys fun v =>
        stringifyNormalizedJson floatText (normalizeJsonValue (goValue v))
      simp only [Function.comp_def] at hsorted hwritten ⊢
      rw [hsorted, stringifyNormalizedJson, stringifyProperties_eq, List.map_map]
      simp only [Function.comp_def]
      rw [hwritten, List.map_map, shown, goText_map, shownEntries_eq, sortByKey_entries,
        List.map_map]
      congr 3
      refine List.map_congr_left fun e he => ?_
      have hmem := mem_sortByKey.mp he
      simp only [Function.comp_apply]
      rw [stringifyJsonString_eq (hentries e hmem).1, ih e hmem (hentries e hmem).2]

/-! ## Numbers that JavaScript changes -/

/-- JavaScript prints the integer as itself: no number with fewer significant
digits, and none nearer, is read as the same double. -/
def SurvivesDouble (n : ℤ) : Prop := Binary64.shortest (Binary64.toDouble n.natAbs) = n.natAbs

instance : DecidablePred SurvivesDouble := fun _ => inferInstanceAs (Decidable (_ = _))

theorem naturalText_eq {n : ℕ} (h : n < 2 ^ 64) :
    naturalText n = some (Nat.toDigits 10 (Binary64.shortest (Binary64.toDouble n))) := by
  have hfinite : ¬ 1024 ≤ (Binary64.toDouble n).log2 := by
    rcases Nat.eq_zero_or_pos (Binary64.toDouble n) with hzero | hpos
    · rw [hzero]
      decide
    · have hle := Binary64.toDouble_le h
      have hpow : 2 ^ 64 < 2 ^ 65 := by decide
      have := (Nat.log2_lt hpos.ne').mpr (hle.trans_lt hpow)
      omega
  have hlength : (Nat.toDigits 10 (Binary64.shortest (Binary64.toDouble n))).length ≤ 21 :=
    (Nat.length_toDigits_le_iff (by decide) (by decide)).mpr (Binary64.shortest_toDouble_lt h)
  simp only [naturalText, if_neg hfinite, if_pos hlength]

theorem signOf_toDigits (n : ℕ) : signOf (Nat.toDigits 10 n) = (false, Nat.toDigits 10 n) := by
  unfold signOf
  split
  · rename_i ds heq
    have := List.all_eq_true.mp (isDigit_toDigits n) '-' (heq ▸ List.mem_cons_self)
    cases this
  · rfl

theorem numberText_toDigits {n : ℕ} (h : n < 2 ^ 64) : numberText floatText (Nat.toDigits 10 n)
    = Nat.toDigits 10 (Binary64.shortest (Binary64.toDouble n)) := by
  simp only [numberText, signOf_toDigits, isDigit_toDigits, if_true, Nat.ofDigitChars_ten_toDigits,
    naturalText_eq h, Bool.false_eq_true, false_and, if_false]

theorem numberText_neg_toDigits {n : ℕ} (h : n < 2 ^ 64) (hpos : n ≠ 0) :
    numberText floatText ('-' :: Nat.toDigits 10 n)
      = '-' :: Nat.toDigits 10 (Binary64.shortest (Binary64.toDouble n)) := by
  simp only [numberText, signOf, isDigit_toDigits, if_true, Nat.ofDigitChars_ten_toDigits,
    naturalText_eq h, ne_eq, hpos, not_false_eq_true, and_self]

section Integers

variable {n : ℤ} (low : -2 ^ 63 ≤ n) (high : n < 2 ^ 64)
include low high

theorem isNumber_numberText_decimal : IsNumber (numberText floatText (decimal n)) := by
  cases n with
  | ofNat n =>
      rw [decimal, numberText_toDigits floatText (by simp at high; omega)]
      exact isNumber_toDigits _
  | negSucc n =>
      rw [decimal, numberText_neg_toDigits floatText (by omega) (Nat.succ_ne_zero n)]
      exact isNumber_neg_toDigits _

theorem numberText_decimal_iff :
    numberText floatText (decimal n) = decimal n ↔ SurvivesDouble n := by
  cases n with
  | ofNat n =>
      rw [decimal, numberText_toDigits floatText (by simp at high; omega)]
      exact toDigits_injective.eq_iff
  | negSucc n =>
      rw [decimal, numberText_neg_toDigits floatText (by omega) (Nat.succ_ne_zero n)]
      rw [List.cons_inj_right]
      exact toDigits_injective.eq_iff

end Integers

/-- What the payload says of its floats: JavaScript prints them as Go does. -/
def FloatsAgree (v : GoValue) : Prop := ∀ l ∈ v.floats, numberText floatText l = l

variable {floatText} {v : GoValue}

theorem FloatsAgree.slice {items : List GoValue} (h : FloatsAgree floatText (.slice items)) :
    ∀ v ∈ items, FloatsAgree floatText v :=
  fun v hv l hl => h l (GoValue.mem_collect_slice.mpr ⟨v, hv, hl⟩)

theorem FloatsAgree.map {entries : List (List UInt8 × GoValue)}
    (h : FloatsAgree floatText (.map entries)) : ∀ e ∈ entries, FloatsAgree floatText e.2 :=
  fun e he l hl => h l (GoValue.mem_collect_map.mpr ⟨e, he, .inr hl⟩)

theorem wellFormed_shown (hv : v.WellFormed) (hf : FloatsAgree floatText v) :
    (shown floatText v).WellFormed := by
  induction hv with
  | null => exact .null
  | bool b => exact .bool b
  | int low high => exact .float (isNumber_numberText_decimal floatText low high)
  | float number =>
      have := hf _ (List.mem_singleton_self _)
      exact .float (this.symm ▸ number)
  | string s => exact .string s
  | @slice items h ih =>
      rw [shown, shownItems_eq]
      refine .slice fun v hv => ?_
      obtain ⟨v', hv', rfl⟩ := List.mem_map.mp hv
      exact ih v' hv' (hf.slice v' hv')
  | @map entries distinct h ih =>
      rw [shown, shownEntries_eq]
      refine .map ?_ fun e he => ?_
      · rw [List.map_map]
        exact distinct
      · obtain ⟨e', he', rfl⟩ := List.mem_map.mp he
        exact ih e' he' (hf.map e' he')

/-- Integers that survive leave the text as it is. -/
theorem goText_shown (hv : v.WellFormed) (hf : FloatsAgree floatText v)
    (hints : ∀ n ∈ v.ints, SurvivesDouble n) : goText (shown floatText v) = goText v := by
  induction hv with
  | null => rfl
  | bool b => rfl
  | @int n low high =>
      have hn := (numberText_decimal_iff floatText low high).mpr
        (hints n (List.mem_singleton_self n))
      rw [shown, goText, goText, hn]
  | @float l number =>
      have hl := hf l (List.mem_singleton_self l)
      rw [shown, goText, goText, hl]
  | string s => rfl
  | @slice items h ih =>
      rw [shown, goText, goText, goItems_eq, goItems_eq, shownItems_eq, List.map_map]
      congr 3
      exact List.map_congr_left fun v hv => ih v hv (hf.slice v hv) fun n hn =>
        hints n (GoValue.mem_collect_slice.mpr ⟨v, hv, hn⟩)
  | @map entries distinct h ih =>
      rw [shown, goText_map, goText_map, shownEntries_eq, sortByKey_entries, List.map_map]
      congr 3
      refine List.map_congr_left fun e he => ?_
      have hmem := mem_sortByKey.mp he
      simp only [Function.comp_apply]
      rw [ih e hmem (hf.map e hmem) fun n hn =>
        hints n (GoValue.mem_collect_map.mpr ⟨e, hmem, .inr hn⟩)]

/-- What the parser finds tells the integers apart. -/
theorem survive_of_goValue_shown (hv : v.WellFormed) (hvalid : ∀ s ∈ v.strings, Utf8.Valid s)
    (he : goValue (shown floatText v) = goValue v) : ∀ n ∈ v.ints, SurvivesDouble n := by
  induction hv with
  | null | bool | float | string => exact nofun
  | int low high =>
      intro n hn
      obtain rfl := List.mem_singleton.mp hn
      refine (numberText_decimal_iff floatText low high).mp ?_
      simpa [shown, goValue] using he
  | @slice items h ih =>
      rw [shown, goValue, goValue, goValueItems_eq, goValueItems_eq, shownItems_eq,
        List.map_map] at he
      intro n hn
      obtain ⟨v, hv, hnv⟩ := GoValue.mem_collect_slice.mp hn
      have hsame := List.map_inj_left.mp (Value.array.inj he) v hv
      exact ih v hv (valid_of_mem_slice hvalid v hv) hsame n hnv
  | @map entries distinct h ih =>
      have hentries := valid_of_mem_map hvalid
      have hkeys : ∀ e ∈ entries, Utf8.Valid e.1 := fun e he => (hentries e he).1
      rw [shown, goValue_map, goValue_map, shownEntries_eq, sortByKey_entries, List.map_map,
        Json.ofMembers_of_nodup (nodup_jsString hkeys distinct goValue)] at he
      have hnames := nodup_jsString hkeys distinct fun v => goValue (shown floatText v)
      simp only [Function.comp_def] at he
      rw [Json.ofMembers_of_nodup hnames] at he
      intro n hn
      obtain ⟨e, hmem, hk | hne⟩ := GoValue.mem_collect_map.mp hn
      · cases hk
      · have hsame := List.map_inj_left.mp (Value.object.inj he) e (mem_sortByKey.mpr hmem)
        exact ih e hmem (hentries e hmem).2 (Prod.mk.inj hsame).2 n hne

end Panel

/-! ## Stray bytes -/

/-- No escape of the replacement character, as the agent writes it for a stray
byte, in the text. -/
def noStrayEscape : List Char → Bool
  | [] => true
  | c :: rest =>
      if c = '\\' then
        match rest with
        | 'u' :: 'f' :: 'f' :: 'f' :: 'd' :: _ => false
        | _ :: rest => noStrayEscape rest
        | [] => true
      else noStrayEscape rest

theorem noStrayEscape_cons {c : Char} (hc : c ≠ '\\') (rest : List Char) :
    noStrayEscape (c :: rest) = noStrayEscape rest := by
  rw [noStrayEscape.eq_def]
  simp only [if_neg hc]

theorem noStrayEscape_escape (rest : List Char) : noStrayEscape ('\\' :: rest) =
    match rest with
    | 'u' :: 'f' :: 'f' :: 'f' :: 'd' :: _ => false
    | _ :: rest => noStrayEscape rest
    | [] => true := by
  rw [noStrayEscape.eq_def]
  simp only [if_true]

/-- A piece of text without such an escape, whatever stands behind it. -/
def Clean (t : List Char) : Prop := ∀ rest, noStrayEscape (t ++ rest) = noStrayEscape rest

/-- A piece of text that has such an escape if not `p`. -/
structure Marked (p : Prop) (t : List Char) : Prop where
  clean : p → Clean t
  stray : ¬ p → ∀ rest, noStrayEscape (t ++ rest) = false

section Marks

variable {p q : Prop} {s t : List Char}

theorem Clean.nil : Clean [] := fun _ => rfl

theorem Clean.append (hs : Clean s) (ht : Clean t) : Clean (s ++ t) := by
  intro rest
  rw [List.append_assoc, hs, ht]

theorem Clean.plain {c : Char} (hc : c ≠ '\\') (ht : Clean t) : Clean (c :: t) := by
  intro rest
  rw [List.cons_append, noStrayEscape_cons hc, ht]

theorem clean_of_plain (h : ∀ c ∈ t, c ≠ '\\') : Clean t := by
  induction t with
  | nil => exact Clean.nil
  | cons c t ih =>
      exact Clean.plain (h c List.mem_cons_self) (ih fun d hd => h d (List.mem_cons_of_mem _ hd))

theorem clean_of_all (h : (t.all fun c => c != '\\') = true) : Clean t :=
  clean_of_plain fun c hc => by simpa using List.all_eq_true.mp h c hc

theorem Marked.of_clean (h : Clean t) (hp : p) : Marked p t := ⟨fun _ => h, fun hn => absurd hp hn⟩

theorem Marked.iff (h : Marked p t) (hpq : p ↔ q) : Marked q t :=
  ⟨fun hq => h.clean (hpq.mpr hq), fun hq => h.stray fun hp => hq (hpq.mp hp)⟩

theorem Marked.append (hs : Marked p s) (ht : Marked q t) : Marked (p ∧ q) (s ++ t) := by
  constructor
  · exact fun ⟨hp, hq⟩ => (hs.clean hp).append (ht.clean hq)
  · intro hn rest
    rw [List.append_assoc]
    by_cases hp : p
    · rw [hs.clean hp]
      exact ht.stray (fun hq => hn ⟨hp, hq⟩) rest
    · exact hs.stray hp _

theorem Marked.plain {c : Char} (hc : c ≠ '\\') (ht : Marked q t) : Marked q (c :: t) := by
  constructor
  · exact fun hq => Clean.plain hc (ht.clean hq)
  · intro hq rest
    rw [List.cons_append, noStrayEscape_cons hc]
    exact ht.stray hq rest

theorem Marked.flatMap {α : Type} {f : α → List Char} {P : α → Prop} {l : List α}
    (h : ∀ a ∈ l, Marked (P a) (f a)) : Marked (∀ a ∈ l, P a) (l.flatMap f) := by
  induction l with
  | nil => exact .of_clean .nil nofun
  | cons a l ih =>
      rw [List.flatMap_cons]
      have htail := ih fun b hb => h b (List.mem_cons_of_mem _ hb)
      exact ((h a List.mem_cons_self).append htail).iff List.forall_mem_cons.symm

theorem Marked.commas {α : Type} {f : α → List Char} {P : α → Prop} {l : List α}
    (h : ∀ a ∈ l, Marked (P a) (f a)) : Marked (∀ a ∈ l, P a) (commas (l.map f)) := by
  induction l with
  | nil => exact .of_clean .nil nofun
  | cons a l ih =>
      have hhead := h a List.mem_cons_self
      have htail := ih fun b hb => h b (List.mem_cons_of_mem _ hb)
      cases l with
      | nil => exact hhead.iff (by simp)
      | cons b l =>
          exact (hhead.append (.plain (by decide) htail)).iff List.forall_mem_cons.symm

end Marks

theorem hexDigits_plain : ∀ n < 16, hexDigits n ≠ '\\' := by decide

/-- An escape of two characters. -/
theorem clean_escape {e : Char} (he : e ≠ 'u') : Clean ['\\', e] := by
  intro rest
  simp only [List.cons_append, List.nil_append, noStrayEscape_escape]
  split
  · rename_i heq
    exact absurd (List.cons.inj heq).1 he
  · rename_i heq
    rw [(List.cons.inj heq).2]
  · rename_i heq
    cases heq

/-- A Unicode escape that does not start with `f`. -/
theorem clean_unicode {a b c d : Char} (ha : a ≠ 'f') (h : ∀ x ∈ [a, b, c, d], x ≠ '\\') :
    Clean ['\\', 'u', a, b, c, d] := by
  intro rest
  simp only [List.cons_append, List.nil_append, noStrayEscape_escape]
  split
  · rename_i heq
    have := (List.cons.inj (List.cons.inj heq).2).1
    exact absurd this ha
  · rename_i heq
    rw [← (List.cons.inj heq).2]
    exact clean_of_plain h rest
  · rename_i heq
    cases heq

theorem marked_goRune (r : Option Char) : Marked (r ≠ none) (goRune r) := by
  cases r with
  | none => exact ⟨fun h => absurd rfl h, fun _ _ => rfl⟩
  | some c =>
      refine .of_clean ?_ (Option.some_ne_none c)
      simp only [goRune]
      split
      · rename_i h
        rcases h with rfl | rfl
        · exact clean_escape (by decide)
        · exact clean_escape (by decide)
      rename_i hquote
      iterate 5
        split
        · exact clean_escape (by decide)
      split
      · rename_i h
        refine clean_unicode (by decide) ?_
        simp only [List.mem_cons, List.not_mem_nil, or_false]
        rintro x (rfl | rfl | rfl | rfl)
        · decide
        · decide
        · exact hexDigits_plain _ (by omega)
        · exact hexDigits_plain _ (by omega)
      split
      · refine clean_unicode (by decide) ?_
        simp only [List.mem_cons, List.not_mem_nil, or_false]
        rintro x (rfl | rfl | rfl | rfl)
        · decide
        · decide
        · decide
        · exact hexDigits_plain _ (by omega)
      · rw [not_or] at hquote
        exact Clean.plain hquote.2 .nil

theorem marked_goString (s : List UInt8) : Marked (Utf8.Valid s) (goString s) := by
  have hrunes := Marked.flatMap (l := Utf8.runes s) fun r _ => marked_goRune r
  have hquote : Clean ['"'] := Clean.plain (by decide) .nil
  have htext := Marked.plain (c := '"') (by decide) (hrunes.append (.of_clean hquote trivial))
  refine htext.iff ?_
  rw [and_true]
  exact ⟨fun h hin => h none hin rfl, fun h r hr hn => h (hn ▸ hr)⟩

theorem numberChar_plain {l : List Char} (h : IsNumber l) : Clean l := by
  refine clean_of_plain fun c hc heq => ?_
  have := List.all_eq_true.mp h.chars c hc
  rw [heq] at this
  cases this

theorem clean_close {c : Char} (hc : c ≠ '\\') : Clean [c] := Clean.plain hc .nil

/-- The agent's text has the escape of a stray byte exactly if a string of the
payload is not UTF-8. -/
theorem marked_goText {v : GoValue} (hv : v.WellFormed) :
    Marked (∀ s ∈ v.strings, Utf8.Valid s) (goText v) := by
  induction hv with
  | null => exact .of_clean (clean_of_all (by decide)) nofun
  | bool b => cases b <;> exact .of_clean (clean_of_all (by decide)) nofun
  | int low high => exact .of_clean (numberChar_plain (isNumber_decimal _)) nofun
  | float number => exact .of_clean (numberChar_plain number) nofun
  | string s =>
      rw [goText]
      exact (marked_goString s).iff (List.forall_mem_singleton).symm
  | @slice items h ih =>
      rw [goText, goItems_eq]
      have hitems := Marked.commas ih
      refine (Marked.plain (by decide)
        (hitems.append (.of_clean (clean_close (c := ']') (by decide)) trivial))).iff ?_
      rw [and_true]
      constructor
      · intro hall s hs
        obtain ⟨v, hv, hsv⟩ := GoValue.mem_collect_slice.mp hs
        exact hall v hv s hsv
      · exact valid_of_mem_slice
  | @map entries distinct h ih =>
      rw [goText_map]
      have hmembers := Marked.commas (l := sortByKey Prod.fst entries) fun e he =>
        (marked_goString e.1).append
          (Marked.plain (c := ':') (by decide) (ih e (mem_sortByKey.mp he)))
      refine (Marked.plain (by decide)
        (hmembers.append (.of_clean (clean_close (c := '}') (by decide)) trivial))).iff ?_
      rw [and_true]
      constructor
      · intro hall s hs
        obtain ⟨e, he, hk | hse⟩ := GoValue.mem_collect_map.mp hs
        · exact List.mem_singleton.mp hk ▸ (hall e (mem_sortByKey.mpr he)).1
        · exact (hall e (mem_sortByKey.mpr he)).2 s hse
      · exact fun hall e he => valid_of_mem_map hall e (mem_sortByKey.mp he)

/-- A value that is written without the escape: its strings hold no lone
surrogates, and its numbers are printed plainly. -/
inductive Plain (floatText : List Char → List Char) : Value → Prop
  | null : Plain floatText .null
  | bool (b : Bool) : Plain floatText (.bool b)
  | number {l : List Char} (h : Clean (numberText floatText l)) : Plain floatText (.number l)
  | string (s : List Char) : Plain floatText (.string (s.map .char))
  | array {items : List Value} (h : ∀ v ∈ items, Plain floatText v) : Plain floatText (.array items)
  | object {ps : List (List JsChar × Value)} (keys : ∀ p ∈ ps, ∃ k : List Char, p.1 = k.map .char)
      (h : ∀ p ∈ ps, Plain floatText p.2) : Plain floatText (.object ps)

section Plain

variable {floatText : List Char → List Char} {v : GoValue} {u : Value}

theorem plain_goValue (hv : v.WellFormed) (hf : FloatsAgree floatText v) :
    Plain floatText (goValue v) := by
  induction hv with
  | null => exact .null
  | bool b => exact .bool b
  | int low high => exact .number (numberChar_plain (isNumber_numberText_decimal floatText low high))
  | @float l number =>
      refine .number ?_
      rw [hf l (List.mem_singleton_self l)]
      exact numberChar_plain number
  | string s => exact .string _
  | @slice items h ih =>
      rw [goValue, goValueItems_eq]
      refine .array fun u hu => ?_
      obtain ⟨v, hv, rfl⟩ := List.mem_map.mp hu
      exact ih v hv (hf.slice v hv)
  | @map entries distinct h ih =>
      rw [goValue_map]
      obtain ⟨ps, heq, hps⟩ := Json.ofMembers_eq ((sortByKey Prod.fst entries).map fun e =>
        (jsString e.1, goValue e.2))
      have hmembers : ∀ p ∈ ps, ∃ e ∈ entries, p = (jsString e.1, goValue e.2) := by
        intro p hp
        obtain ⟨e, he, rfl⟩ := List.mem_map.mp (hps p hp)
        exact ⟨e, mem_sortByKey.mp he, rfl⟩
      rw [heq]
      refine .object (fun p hp => ?_) fun p hp => ?_
      · obtain ⟨e, -, rfl⟩ := hmembers p hp
        exact ⟨_, rfl⟩
      · obtain ⟨e, he, rfl⟩ := hmembers p hp
        exact ih e he (hf.map e he)

theorem plain_normalize (h : Plain floatText u) : Plain floatText (normalizeJsonValue u) := by
  induction h with
  | null => exact .null
  | bool b => exact .bool b
  | number h => exact .number h
  | string s => exact .string s
  | @array items h ih =>
      rw [normalizeJsonValue, normalizeItems_eq]
      refine .array fun u hu => ?_
      obtain ⟨v, hv, rfl⟩ := List.mem_map.mp hu
      exact ih v hv
  | @object ps keys h ih =>
      rw [normalizeJsonValue, normalizeProperties_eq]
      refine .object (fun p hp => ?_) fun p hp => ?_
      · obtain ⟨p', hp', rfl⟩ := List.mem_map.mp (mem_sortByKey.mp hp)
        exact keys p' hp'
      · obtain ⟨p', hp', rfl⟩ := List.mem_map.mp (mem_sortByKey.mp hp)
        exact ih p' hp'

theorem clean_stringifyJsonString (s : List Char) : Clean (stringifyJsonString (s.map .char)) := by
  have hchars : Clean (((s.map JsChar.char).flatMap jsonQuote).flatMap escapeSeparator) := by
    induction s with
    | nil => exact .nil
    | cons c s ih =>
        rw [List.map_cons, List.flatMap_cons, List.flatMap_append, quote_eq_goRune]
        exact ((marked_goRune (some c)).clean (Option.some_ne_none c)).append ih
  rw [stringifyJsonString, List.flatMap_cons, List.flatMap_append]
  exact (clean_close (c := '"') (by decide)).append
    (hchars.append (clean_close (c := '"') (by decide)))

theorem clean_stringify (h : Plain floatText u) :
    Clean (stringifyNormalizedJson floatText u) := by
  have hcommas : ∀ {α : Type} {f : α → List Char} {l : List α}, (∀ a ∈ l, Clean (f a)) →
      Clean (commas (l.map f)) := fun h =>
    (Marked.commas fun a ha => Marked.of_clean (h a ha) trivial).clean fun _ _ => trivial
  induction h with
  | null =>
      rw [stringifyNormalizedJson]
      exact clean_of_all (by decide)
  | bool b =>
      cases b with
      | true =>
          rw [stringifyNormalizedJson]
          exact clean_of_all (by decide)
      | false =>
          rw [stringifyNormalizedJson]
          exact clean_of_all (by decide)
  | number h => exact h
  | string s => exact clean_stringifyJsonString s
  | @array items h ih =>
      rw [stringifyNormalizedJson, stringifyItems_eq]
      exact .plain (by decide) ((hcommas ih).append (clean_close (by decide)))
  | @object ps keys h ih =>
      rw [stringifyNormalizedJson, stringifyProperties_eq]
      refine .plain (by decide) ((hcommas fun e he => ?_).append (clean_close (by decide)))
      obtain ⟨p, hp, rfl⟩ := List.mem_map.mp (mem_sortByKey.mp he)
      obtain ⟨k, hk⟩ := keys p hp
      rw [hk]
      exact (clean_stringifyJsonString k).append (.plain (by decide) (ih p hp))

/-! ## Agreement -/

theorem panelBody_canonicalJSON (hv : v.WellFormed) :
    panelBody floatText (canonicalJSON v)
      = some (Utf8.encode (stableStringifyAgentBody floatText (goValue v))) := by
  have hparse := Json.parse_of_parses (parses_goText hv)
  rw [panelBody, canonicalJSON, Utf8.decode_encode, Option.bind_eq_bind, Option.bind_some, hparse]
  rfl

theorem panelBody_eq_iff_text (hv : v.WellFormed) :
    panelBody floatText (canonicalJSON v) = some (canonicalJSON v) ↔
      stableStringifyAgentBody floatText (goValue v) = goText v := by
  rw [panelBody_canonicalJSON hv, canonicalJSON, Option.some_inj, Utf8.encode_injective.eq_iff]

/-- The panel never writes the escape that a stray byte leaves in the agent's text. -/
theorem valid_of_stringify_eq (hv : v.WellFormed) (hf : FloatsAgree floatText v)
    (heq : stableStringifyAgentBody floatText (goValue v) = goText v) :
    ∀ s ∈ v.strings, Utf8.Valid s := by
  by_contra hstray
  have hagent := (marked_goText hv).stray hstray []
  have hpanel := clean_stringify (plain_normalize (plain_goValue hv hf)) []
  rw [← heq, stableStringifyAgentBody, hpanel] at hagent
  cases hagent

theorem survive_of_stringify_eq (hv : v.WellFormed) (hf : FloatsAgree floatText v)
    (hvalid : ∀ s ∈ v.strings, Utf8.Valid s)
    (heq : stableStringifyAgentBody floatText (goValue v) = goText v) :
    ∀ n ∈ v.ints, SurvivesDouble n := by
  rw [stringify_goValue floatText hv hvalid] at heq
  have hshown := Json.parse_of_parses (parses_goText (wellFormed_shown hv hf))
  rw [heq, Json.parse_of_parses (parses_goText hv)] at hshown
  exact survive_of_goValue_shown hv hvalid (Option.some.inj hshown).symm

/-- For every payload the panel writes the bytes that the agent has written if
and only if all strings of the payload are UTF-8 and all its integers survive
as doubles. -/
theorem panelBody_eq_iff (hv : v.WellFormed) (hf : FloatsAgree floatText v) :
    panelBody floatText (canonicalJSON v) = some (canonicalJSON v) ↔
      (∀ s ∈ v.strings, Utf8.Valid s) ∧ ∀ n ∈ v.ints, SurvivesDouble n := by
  rw [panelBody_eq_iff_text hv]
  constructor
  · intro heq
    have hvalid := valid_of_stringify_eq hv hf heq
    exact ⟨hvalid, survive_of_stringify_eq hv hf hvalid heq⟩
  · rintro ⟨hvalid, hints⟩
    rw [stringify_goValue floatText hv hvalid, goText_shown hv hf hints]

end Plain

/-! ## Three payloads -/

/-- `{"load":[-5,1.5,"é"]}` -/
def loadReport : GoValue :=
  .map [([108, 111, 97, 100], .slice [.int (-5), .float ['1', '.', '5'], .string [0xC3, 0xA9]])]

theorem wellFormed_loadReport : loadReport.WellFormed := by
  refine .map (by decide) ?_
  rintro e he
  obtain rfl := List.mem_singleton.mp he
  refine .slice ?_
  simp only [List.mem_cons, List.not_mem_nil, or_false]
  rintro v (rfl | rfl | rfl)
  · exact .int (by decide) (by decide)
  · exact .float ⟨by decide, by decide⟩
  · exact .string _

theorem panelBody_loadReport :
    panelBody id (canonicalJSON loadReport) = some (canonicalJSON loadReport) :=
  (panelBody_eq_iff wellFormed_loadReport (by unfold FloatsAgree; decide)).mpr
    ⟨by decide, by decide⟩

/-- An error text that has been cut within a character: `{"error":"x\xE4\xBD"}`. -/
def cutError : GoValue := .map [([101, 114, 114, 111, 114], .string [120, 0xE4, 0xBD])]

/-- A counter of `2 ^ 53 + 1` bytes. -/
def bigCounter : GoValue := .map [([114, 120], .int 9007199254740993)]

/-- The panel writes neither as the agent does. -/
theorem panelBody_cutError_ne :
    panelBody id (canonicalJSON cutError) ≠ some (canonicalJSON cutError) ∧
      panelBody id (canonicalJSON bigCounter) ≠ some (canonicalJSON bigCounter) := by
  have hcut : cutError.WellFormed := by
    refine .map (by decide) fun e he => ?_
    obtain rfl := List.mem_singleton.mp he
    exact .string _
  have hbig : bigCounter.WellFormed := by
    refine .map (by decide) fun e he => ?_
    obtain rfl := List.mem_singleton.mp he
    exact .int (by decide) (by decide)
  constructor
  · rw [ne_eq, panelBody_eq_iff_text hcut]
    intro heq
    have hvalid := valid_of_stringify_eq hcut nofun heq [120, 0xE4, 0xBD] (by decide)
    exact absurd hvalid (by decide)
  · rw [ne_eq, panelBody_eq_iff_text hbig]
    intro heq
    have hvalid : ∀ s ∈ bigCounter.strings, Utf8.Valid s := by decide
    have hint := survive_of_stringify_eq hbig nofun hvalid heq 9007199254740993 (by decide)
    exact absurd hint (by decide +kernel)

end Incudal
