/-
# `Lib.Json` — what a text stands for as JSON

`parse` reads a text the way `JSON.parse` does.  A string is a list of
characters and lone surrogates, since an escape may name half of a pair.  A
number keeps the literal it was written as, and an object the properties in
the order in which they were first written; a repeated property keeps its last
value.

`Parses text v` says that `text` stands for `v` wherever it occurs.  There is
one rule for each form of value (`Parses.number`, `Parses.string`,
`Parses.array`, `Parses.object`), so that a writer is shown to be read back by
following how it writes; `parse_of_parses` ends such a proof.
-/
import Mathlib.Data.List.Basic
import Mathlib.Data.List.Forall2

namespace Json

/-- A character, or a surrogate without its other half. -/
inductive JsChar
  | char (c : Char)
  | lone (unit : ℕ)
deriving DecidableEq, Repr

inductive Value
  | null
  | bool (b : Bool)
  | number (literal : List Char)
  | string (s : List JsChar)
  | array (items : List Value)
  | object (properties : List (List JsChar × Value))

/-! ## Numbers -/

/-- The characters that a number is made of. -/
def numberChar (c : Char) : Bool :=
  c.isDigit || c == '-' || c == '+' || c == '.' || c == 'e' || c == 'E'

/-- `[eE][+-]?[0-9]+`, or nothing. -/
def isExponent : List Char → Bool
  | [] => true
  | e :: rest =>
      (e == 'e' || e == 'E') &&
        match rest with
        | '+' :: ds => ds != [] && ds.all Char.isDigit
        | '-' :: ds => ds != [] && ds.all Char.isDigit
        | ds => ds != [] && ds.all Char.isDigit

/-- `(\.[0-9]+)?` and an exponent. -/
def isFraction : List Char → Bool
  | '.' :: rest => rest.takeWhile Char.isDigit != [] && isExponent (rest.dropWhile Char.isDigit)
  | rest => isExponent rest

/-- `0` or digits that do not start with it, then the rest. -/
def isUnsigned (cs : List Char) : Bool :=
  let digits := cs.takeWhile Char.isDigit
  digits != [] && (digits == ['0'] || digits.head? != some '0') &&
    isFraction (cs.dropWhile Char.isDigit)

/-- A number literal. -/
def isNumber : List Char → Bool
  | '-' :: cs => isUnsigned cs
  | cs => isUnsigned cs

/-- The number at the front of a text. -/
def scanNumber (cs : List Char) : Option (List Char × List Char) :=
  let literal := cs.takeWhile numberChar
  if isNumber literal then some (literal, cs.dropWhile numberChar) else none

/-! ## Strings -/

def hexDigit (c : Char) : Option ℕ :=
  if '0' ≤ c ∧ c ≤ '9' then some (c.toNat - '0'.toNat)
  else if 'a' ≤ c ∧ c ≤ 'f' then some (c.toNat - 'a'.toNat + 10)
  else if 'A' ≤ c ∧ c ≤ 'F' then some (c.toNat - 'A'.toNat + 10)
  else none

/-- The code unit that four digits name. -/
def hexUnit (a b c d : Char) : Option ℕ := do
  let a ← hexDigit a
  let b ← hexDigit b
  let c ← hexDigit c
  let d ← hexDigit d
  return ((a * 16 + b) * 16 + c) * 16 + d

def isHighSurrogate (unit : ℕ) : Bool := 0xD800 ≤ unit && unit < 0xDC00

def isLowSurrogate (unit : ℕ) : Bool := 0xDC00 ≤ unit && unit < 0xE000

/-- The character of a surrogate pair. -/
def pairChar (high low : ℕ) : Char := Char.ofNat (0x10000 + (high - 0xD800) * 0x400 + (low - 0xDC00))

/-- What a code unit stands for on its own. -/
def unitChar (unit : ℕ) : JsChar :=
  if isHighSurrogate unit || isLowSurrogate unit then .lone unit else .char (Char.ofNat unit)

/-- The character that a one-letter escape names. -/
def escapeChar : Char → Option Char
  | '"' => some '"'
  | '\\' => some '\\'
  | '/' => some '/'
  | 'b' => some '\x08'
  | 'f' => some '\x0c'
  | 'n' => some '\n'
  | 'r' => some '\r'
  | 't' => some '\t'
  | _ => none

/-- The low half of a pair, where its escape stands at the front. -/
def lowEscape : List Char → Option (ℕ × List Char)
  | '\\' :: 'u' :: a :: b :: c :: d :: rest =>
      match hexUnit a b c d with
      | some low => if isLowSurrogate low then some (low, rest) else none
      | none => none
  | _ => none

def push (c : JsChar) (r : Option (List JsChar × List Char)) : Option (List JsChar × List Char) :=
  r.map fun p => (c :: p.1, p.2)

/-- The rest of a string after its opening quote, with `fuel` for its length. -/
def parseString : ℕ → List Char → Option (List JsChar × List Char)
  | 0, _ => none
  | _ + 1, [] => none
  | fuel + 1, c :: rest =>
      if c = '"' then some ([], rest)
      else if c = '\\' then
        match rest with
        | 'u' :: a :: b :: c :: d :: rest =>
            match hexUnit a b c d with
            | none => none
            | some unit =>
                if isHighSurrogate unit then
                  match lowEscape rest with
                  | some (low, rest) => push (.char (pairChar unit low)) (parseString fuel rest)
                  | none => push (.lone unit) (parseString fuel rest)
                else push (unitChar unit) (parseString fuel rest)
        | e :: rest =>
            match escapeChar e with
            | some c => push (.char c) (parseString fuel rest)
            | none => none
        | [] => none
      else if c.toNat < 0x20 then none
      else push (.char c) (parseString fuel rest)

/-! ## Values -/

def isSpace (c : Char) : Bool := c == ' ' || c == '\t' || c == '\n' || c == '\r'

def skipSpace (cs : List Char) : List Char := cs.dropWhile isSpace

/-- A property, in the place of an earlier one of the same name. -/
def setProperty (k : List JsChar) (v : Value) : List (List JsChar × Value) → List (List JsChar × Value)
  | [] => [(k, v)]
  | (k', v') :: ps => if k' = k then (k, v) :: ps else (k', v') :: setProperty k v ps

/-- The object of the members as they were written. -/
def ofMembers (members : List (List JsChar × Value)) : Value :=
  .object (members.foldl (fun ps m => setProperty m.1 m.2 ps) [])

mutual

/-- The value at the front of a text, with `fuel` for its length. -/
def parseValue : ℕ → List Char → Option (Value × List Char)
  | 0, _ => none
  | fuel + 1, cs =>
      match skipSpace cs with
      | 'n' :: 'u' :: 'l' :: 'l' :: rest => some (.null, rest)
      | 't' :: 'r' :: 'u' :: 'e' :: rest => some (.bool true, rest)
      | 'f' :: 'a' :: 'l' :: 's' :: 'e' :: rest => some (.bool false, rest)
      | '"' :: rest => (parseString fuel rest).map fun p => (.string p.1, p.2)
      | '[' :: rest =>
          match skipSpace rest with
          | ']' :: rest => some (.array [], rest)
          | rest => (parseItems fuel rest).map fun p => (.array p.1, p.2)
      | '{' :: rest =>
          match skipSpace rest with
          | '}' :: rest => some (.object [], rest)
          | rest => (parseMembers fuel rest).map fun p => (ofMembers p.1, p.2)
      | cs => (scanNumber cs).map fun p => (.number p.1, p.2)

/-- The items of an array and its closing bracket. -/
def parseItems : ℕ → List Char → Option (List Value × List Char)
  | 0, _ => none
  | fuel + 1, cs =>
      match parseValue fuel cs with
      | none => none
      | some (v, rest) =>
          match skipSpace rest with
          | ',' :: rest => (parseItems fuel rest).map fun p => (v :: p.1, p.2)
          | ']' :: rest => some ([v], rest)
          | _ => none

/-- The members of an object and its closing brace. -/
def parseMembers : ℕ → List Char → Option (List (List JsChar × Value) × List Char)
  | 0, _ => none
  | fuel + 1, cs =>
      match skipSpace cs with
      | '"' :: rest =>
          match parseString fuel rest with
          | none => none
          | some (k, rest) =>
              match skipSpace rest with
              | ':' :: rest =>
                  match parseValue fuel rest with
                  | none => none
                  | some (v, rest) =>
                      match skipSpace rest with
                      | ',' :: rest => (parseMembers fuel rest).map fun p => ((k, v) :: p.1, p.2)
                      | '}' :: rest => some ([(k, v)], rest)
                      | _ => none
              | _ => none
      | _ => none

end

attribute [grind =] parseString parseValue parseItems parseMembers

/-- `JSON.parse`. -/
def parse (text : List Char) : Option Value :=
  match parseValue (text.length + 1) text with
  | some (v, rest) => if skipSpace rest = [] then some v else none
  | none => none

/-! ## Texts that stand for a value -/

/-- A text after which a number ends. -/
def Stops : List Char → Prop
  | [] => True
  | c :: _ => numberChar c = false

/-- The text stands for the value, whatever follows it. -/
structure Parses (text : List Char) (v : Value) : Prop where
  starts : ∃ c cs, text = c :: cs ∧ isSpace c = false ∧ c ≠ ']'
  reads : ∀ fuel rest, text.length < fuel → Stops rest →
    parseValue fuel (text ++ rest) = some (v, rest)

/-- The text, between quotes, stands for the string. -/
def ParsesString (text : List Char) (s : List JsChar) : Prop :=
  ∀ fuel rest, text.length < fuel → parseString fuel (text ++ '"' :: rest) = some (s, rest)

variable {text text' : List Char} {v : Value} {s s' : List JsChar} {fuel : ℕ} {rest : List Char}

theorem parse_of_parses (h : Parses text v) : parse text = some v := by
  have := h.reads (text.length + 1) [] (Nat.lt_succ_self _) trivial
  rw [List.append_nil] at this
  simp [parse, this, skipSpace]

theorem skipSpace_cons {c : Char} (hc : isSpace c = false) : skipSpace (c :: rest) = c :: rest := by
  simp [skipSpace, hc]

/-- There is fuel for one step more. -/
theorem fuel_succ {n : ℕ} (h : n < fuel) : ∃ f, fuel = f + 1 ∧ n ≤ f := by
  cases fuel with
  | zero => exact absurd h (Nat.not_lt_zero _)
  | succ f => exact ⟨f, rfl, Nat.le_of_lt_succ h⟩

theorem Parses.null : Parses ['n', 'u', 'l', 'l'] .null := by
  refine ⟨⟨_, _, rfl, rfl, by decide⟩, fun fuel rest hf _ => ?_⟩
  obtain ⟨f, rfl, -⟩ := fuel_succ hf
  rfl

theorem Parses.true : Parses ['t', 'r', 'u', 'e'] (.bool true) := by
  refine ⟨⟨_, _, rfl, rfl, by decide⟩, fun fuel rest hf _ => ?_⟩
  obtain ⟨f, rfl, -⟩ := fuel_succ hf
  rfl

theorem Parses.false : Parses ['f', 'a', 'l', 's', 'e'] (.bool false) := by
  refine ⟨⟨_, _, rfl, rfl, by decide⟩, fun fuel rest hf _ => ?_⟩
  obtain ⟨f, rfl, -⟩ := fuel_succ hf
  rfl

/-! ### Numbers -/

theorem span_append {p : Char → Bool} (ht : text.all p = true)
    (hr : ∀ c ∈ rest.head?, p c = false) :
    (text ++ rest).takeWhile p = text ∧ (text ++ rest).dropWhile p = rest := by
  induction text with
  | nil =>
      cases rest with
      | nil => exact ⟨rfl, rfl⟩
      | cons c rest =>
          have hc := hr c rfl
          constructor <;> simp [hc]
  | cons c text ih =>
      simp only [List.all_cons, Bool.and_eq_true] at ht
      obtain ⟨h₁, h₂⟩ := ih ht.2
      constructor
      · simp [ht.1, h₁]
      · simp [ht.1, h₂]

/-- A literal that `scanNumber` takes whole. -/
structure IsNumber (text : List Char) : Prop where
  shape : isNumber text = true
  chars : text.all numberChar = true

theorem scanNumber_append (h : IsNumber text) (hr : Stops rest) :
    scanNumber (text ++ rest) = some (text, rest) := by
  have hstop : ∀ c ∈ rest.head?, numberChar c = false := by
    intro c hc
    cases rest with
    | nil => cases hc
    | cons d rest =>
        cases hc
        exact hr
  obtain ⟨h₁, h₂⟩ := span_append h.chars hstop
  simp [scanNumber, h₁, h₂, h.shape]

theorem isDigit_head_of_isUnsigned {c : Char} {cs : List Char} (h : isUnsigned (c :: cs) = true) :
    c.isDigit = true := by
  by_contra hc
  simp [isUnsigned, hc] at h

theorem IsNumber.head (h : IsNumber text) :
    ∃ c cs, text = c :: cs ∧ (c = '-' ∨ c.isDigit = true) := by
  cases text with
  | nil => exact absurd h.shape (by decide)
  | cons c cs =>
      refine ⟨c, cs, rfl, ?_⟩
      have hs := h.shape
      unfold isNumber at hs
      split at hs
      · rename_i heq
        cases heq
        exact .inl rfl
      · exact .inr (isDigit_head_of_isUnsigned hs)

theorem Parses.number (h : IsNumber text) : Parses text (.number text) := by
  obtain ⟨c, cs, rfl, hc⟩ := h.head
  have hne : ∀ d, d ≠ '-' → d.isDigit = Bool.false → c ≠ d := by
    rintro d h₁ h₂ rfl
    rcases hc with rfl | hc
    · exact h₁ rfl
    · rw [h₂] at hc
      cases hc
  have hspace : isSpace c = Bool.false := by
    simp only [isSpace, Bool.or_eq_false_iff, beq_eq_false_iff_ne]
    exact ⟨⟨⟨hne _ (by decide) rfl, hne _ (by decide) rfl⟩, hne _ (by decide) rfl⟩,
      hne _ (by decide) rfl⟩
  refine ⟨⟨c, cs, rfl, hspace, hne _ (by decide) rfl⟩, fun fuel rest hf hr => ?_⟩
  obtain ⟨f, rfl, -⟩ := fuel_succ hf
  have hscan := scanNumber_append h hr
  simp only [parseValue, List.cons_append, skipSpace_cons hspace]
  split
  case h_7 =>
    rw [List.cons_append] at hscan
    rw [hscan]
    rfl
  all_goals
    rename_i heq
    exact absurd (List.cons.inj heq).1 (hne _ (by decide) rfl)

/-! ### Strings -/

theorem Parses.string (h : ParsesString text s) : Parses ('"' :: (text ++ ['"'])) (.string s) := by
  refine ⟨⟨_, _, rfl, rfl, by decide⟩, fun fuel rest hf _ => ?_⟩
  obtain ⟨f, rfl, hle⟩ := fuel_succ hf
  simp only [List.length_append, List.length_cons] at hle
  have hread := h f rest (by omega)
  simp only [parseValue, List.cons_append, List.append_assoc, skipSpace_cons (c := '"') rfl,
    List.nil_append, hread, Option.map_some]

/-- The empty string, and a string by its first escape or character. -/
theorem ParsesString.nil : ParsesString [] [] := by
  intro fuel rest hf
  obtain ⟨f, rfl, -⟩ := fuel_succ hf
  simp [parseString]

theorem ParsesString.cons {pre : List Char} {c : JsChar} (hpre : pre ≠ [])
    (hstep : ∀ f rest, parseString (f + 1) (pre ++ rest) = push c (parseString f rest))
    (h : ParsesString text s) : ParsesString (pre ++ text) (c :: s) := by
  intro fuel rest hf
  obtain ⟨f, rfl, hle⟩ := fuel_succ hf
  have hpos := List.length_pos_iff.mpr hpre
  rw [List.length_append] at hle
  rw [List.append_assoc, hstep, h f rest (by omega)]
  rfl

theorem parseString_plain {c : Char} (h₁ : c ≠ '"') (h₂ : c ≠ '\\') (h₃ : ¬ c.toNat < 0x20)
    (f : ℕ) (rest : List Char) :
    parseString (f + 1) ([c] ++ rest) = push (.char c) (parseString f rest) := by
  rw [List.singleton_append]
  simp only [parseString, if_neg h₁, if_neg h₂, if_neg h₃]

theorem parseString_escape {e c : Char} (he : escapeChar e = some c) (hu : e ≠ 'u')
    (f : ℕ) (rest : List Char) :
    parseString (f + 1) (['\\', e] ++ rest) = push (.char c) (parseString f rest) := by
  simp only [List.cons_append, List.nil_append, parseString]
  rw [if_neg (by decide), if_pos trivial]
  split
  · rename_i heq
    exact absurd (List.cons.inj heq).1 hu
  · rename_i heq
    obtain ⟨rfl, rfl⟩ := List.cons.inj heq
    rw [he]
  · rename_i heq
    cases heq

theorem parseString_unit {a b c d : Char} {unit : ℕ} (hunit : hexUnit a b c d = some unit)
    (hhigh : isHighSurrogate unit = Bool.false) (f : ℕ) (rest : List Char) :
    parseString (f + 1) (['\\', 'u', a, b, c, d] ++ rest)
      = push (unitChar unit) (parseString f rest) := by
  simp only [List.cons_append, List.nil_append, parseString]
  rw [if_neg (by decide), if_pos trivial]
  simp only [hunit, hhigh, Bool.false_eq_true, if_false]

/-! ### Arrays and objects -/

/-- Texts with commas between them. -/
def commas : List (List Char) → List Char
  | [] => []
  | [t] => t
  | t :: ts => t ++ ',' :: commas ts

theorem commas_cons_cons (t t' : List Char) (ts : List (List Char)) :
    commas (t :: t' :: ts) = t ++ ',' :: commas (t' :: ts) := rfl

/-- What is read after a comma or a closing bracket is found as it is. -/
theorem parseItems_commas {texts : List (List Char)} {values : List Value}
    (h : List.Forall₂ Parses texts values) (hne : texts ≠ []) :
    ∀ fuel rest, (commas texts).length + 1 < fuel →
      parseItems fuel (commas texts ++ ']' :: rest) = some (values, rest) := by
  induction h with
  | nil => exact absurd rfl hne
  | @cons t v ts vs hv hvs ih =>
      intro fuel rest hf
      obtain ⟨f, rfl, hle⟩ := fuel_succ hf
      cases hvs with
      | nil =>
          have hread := hv.reads f (']' :: rest) hle rfl
          simp only [commas, parseItems, hread, skipSpace_cons (c := ']') rfl]
      | @cons t' v' ts vs hv' hvs =>
          rw [commas_cons_cons] at hle ⊢
          simp only [List.length_append, List.length_cons] at hle
          have hread := hv.reads f (',' :: (commas (t' :: ts) ++ ']' :: rest)) (by omega) rfl
          have hrest := ih (List.cons_ne_nil _ _) f rest (by omega)
          simp only [List.append_assoc, List.cons_append, parseItems, hread,
            skipSpace_cons (c := ',') rfl, hrest, Option.map_some]

theorem starts_commas {texts : List (List Char)} {values : List Value}
    (h : List.Forall₂ Parses texts values) (hne : texts ≠ []) :
    ∃ c cs, commas texts = c :: cs ∧ isSpace c = Bool.false ∧ c ≠ ']' := by
  cases h with
  | nil => exact absurd rfl hne
  | @cons t v ts vs hv hvs =>
      obtain ⟨c, cs, rfl, hspace, hc⟩ := hv.starts
      cases hvs with
      | nil => exact ⟨c, cs, rfl, hspace, hc⟩
      | cons _ _ => exact ⟨c, _, rfl, hspace, hc⟩

theorem Parses.array {texts : List (List Char)} {values : List Value}
    (h : List.Forall₂ Parses texts values) : Parses ('[' :: (commas texts ++ [']'])) (.array values) := by
  refine ⟨⟨_, _, rfl, rfl, by decide⟩, fun fuel rest hf _ => ?_⟩
  obtain ⟨f, rfl, hle⟩ := fuel_succ hf
  simp only [List.length_append, List.length_cons] at hle
  simp only [parseValue, List.cons_append, List.append_assoc, List.nil_append,
    skipSpace_cons (c := '[') rfl]
  by_cases hne : texts = []
  · subst hne
    cases h
    simp [commas, skipSpace_cons (c := ']') rfl]
  · have hread := parseItems_commas h hne f rest (by simp at hle; omega)
    obtain ⟨c, cs, htext, hspace, hc⟩ := starts_commas h hne
    rw [htext, List.cons_append] at hread ⊢
    rw [skipSpace_cons hspace]
    split
    · rename_i heq
      exact absurd (List.cons.inj heq).1 hc
    · rw [hread]
      rfl

/-- The text of a member: a string, a colon and a value. -/
def ParsesMember (text : List Char) (m : List JsChar × Value) : Prop :=
  ∃ k x, text = '"' :: (k ++ '"' :: ':' :: x) ∧ ParsesString k m.1 ∧ Parses x m.2

/-- A member with another one after it. -/
theorem parseMembers_more {m : List JsChar × Value} (h : ParsesMember text m) {f : ℕ}
    (hf : text.length ≤ f) : parseMembers (f + 1) (text ++ ',' :: rest)
      = (parseMembers f rest).map fun p => (m :: p.1, p.2) := by
  obtain ⟨k, x, rfl, hk, hx⟩ := h
  simp only [List.length_cons, List.length_append] at hf
  have hkey := hk f (':' :: (x ++ ',' :: rest)) (by omega)
  have hval := hx.reads f (',' :: rest) (by omega) rfl
  simp only [parseMembers, List.cons_append, List.append_assoc, skipSpace_cons (c := '"') rfl, hkey,
    skipSpace_cons (c := ':') rfl, hval, skipSpace_cons (c := ',') rfl]

/-- The last member. -/
theorem parseMembers_last {m : List JsChar × Value} (h : ParsesMember text m) {f : ℕ}
    (hf : text.length ≤ f) : parseMembers (f + 1) (text ++ '}' :: rest) = some ([m], rest) := by
  obtain ⟨k, x, rfl, hk, hx⟩ := h
  simp only [List.length_cons, List.length_append] at hf
  have hkey := hk f (':' :: (x ++ '}' :: rest)) (by omega)
  have hval := hx.reads f ('}' :: rest) (by omega) rfl
  simp only [parseMembers, List.cons_append, List.append_assoc, skipSpace_cons (c := '"') rfl, hkey,
    skipSpace_cons (c := ':') rfl, hval, skipSpace_cons (c := '}') rfl]

theorem parseMembers_commas {texts : List (List Char)} {members : List (List JsChar × Value)}
    (h : List.Forall₂ ParsesMember texts members) (hne : texts ≠ []) :
    ∀ fuel rest, (commas texts).length + 1 < fuel →
      parseMembers fuel (commas texts ++ '}' :: rest) = some (members, rest) := by
  induction h with
  | nil => exact absurd rfl hne
  | @cons t m ts ms hm hms ih =>
      intro fuel rest hf
      obtain ⟨f, rfl, hle⟩ := fuel_succ hf
      cases hms with
      | nil =>
          exact parseMembers_last hm (by rw [commas] at hle; omega)
      | @cons t' m' ts ms hm' hms =>
          rw [commas_cons_cons] at hle ⊢
          simp only [List.length_append, List.length_cons] at hle
          have hrest := ih (List.cons_ne_nil _ _) f rest (by omega)
          rw [List.append_assoc, List.cons_append, parseMembers_more hm (by omega), hrest]
          rfl

theorem Parses.object {texts : List (List Char)} {members : List (List JsChar × Value)}
    (h : List.Forall₂ ParsesMember texts members) :
    Parses ('{' :: (commas texts ++ ['}'])) (ofMembers members) := by
  refine ⟨⟨_, _, rfl, rfl, by decide⟩, fun fuel rest hf _ => ?_⟩
  obtain ⟨f, rfl, hle⟩ := fuel_succ hf
  simp only [List.length_append, List.length_cons] at hle
  simp only [parseValue, List.cons_append, List.append_assoc, List.nil_append,
    skipSpace_cons (c := '{') rfl]
  by_cases hne : texts = []
  · subst hne
    cases h
    simp [commas, skipSpace_cons (c := '}') rfl, ofMembers]
  · have hread := parseMembers_commas h hne f rest (by simp at hle; omega)
    -- a member starts with a quote
    obtain ⟨cs, htext⟩ : ∃ cs, commas texts = '"' :: cs := by
      cases h with
      | nil => exact absurd rfl hne
      | cons hm hms =>
          obtain ⟨k, x, rfl, -⟩ := hm
          cases hms with
          | nil => exact ⟨_, rfl⟩
          | cons _ _ => exact ⟨_, rfl⟩
    rw [htext, List.cons_append] at hread ⊢
    rw [skipSpace_cons (c := '"') rfl]
    show (parseMembers f _).map _ = _
    rw [hread]
    rfl

/-! ### The members of an object -/

theorem mem_setProperty {k : List JsChar} {ps : List (List JsChar × Value)}
    {p : List JsChar × Value} (h : p ∈ setProperty k v ps) : p = (k, v) ∨ p ∈ ps := by
  induction ps with
  | nil => exact .inl (List.mem_singleton.mp h)
  | cons q ps ih =>
      rw [setProperty] at h
      split at h
      · rcases List.mem_cons.mp h with h | h
        · exact .inl h
        · exact .inr (List.mem_cons_of_mem _ h)
      · rcases List.mem_cons.mp h with rfl | h
        · exact .inr List.mem_cons_self
        · exact (ih h).imp_right (List.mem_cons_of_mem _)

theorem mem_foldl_setProperty {members ps : List (List JsChar × Value)} {p : List JsChar × Value}
    (h : p ∈ members.foldl (fun ps m => setProperty m.1 m.2 ps) ps) : p ∈ ps ∨ p ∈ members := by
  induction members generalizing ps with
  | nil => exact .inl h
  | cons m members ih =>
      rcases ih h with h | h
      · rcases mem_setProperty h with rfl | h
        · exact .inr List.mem_cons_self
        · exact .inl h
      · exact .inr (List.mem_cons_of_mem _ h)

/-- Each property of an object was written as one of its members. -/
theorem ofMembers_eq (members : List (List JsChar × Value)) :
    ∃ ps, ofMembers members = .object ps ∧ ∀ p ∈ ps, p ∈ members :=
  ⟨_, rfl, fun _ hp => (mem_foldl_setProperty hp).resolve_left List.not_mem_nil⟩

theorem setProperty_of_new {k : List JsChar} {ps : List (List JsChar × Value)}
    (h : ∀ p ∈ ps, p.1 ≠ k) : setProperty k v ps = ps ++ [(k, v)] := by
  induction ps with
  | nil => rfl
  | cons p ps ih =>
      rw [setProperty, if_neg (h p List.mem_cons_self), List.cons_append,
        ih fun q hq => h q (List.mem_cons_of_mem _ hq)]

theorem foldl_setProperty {members ps : List (List JsChar × Value)}
    (h : ((ps ++ members).map Prod.fst).Nodup) :
    members.foldl (fun ps m => setProperty m.1 m.2 ps) ps = ps ++ members := by
  induction members generalizing ps with
  | nil => simp
  | cons m members ih =>
      have hnew : ∀ p ∈ ps, p.1 ≠ m.1 := by
        rw [List.map_append, List.nodup_append] at h
        exact fun p hp => h.2.2 p.1 (List.mem_map_of_mem hp) m.1 (by simp)
      have happend : ps ++ m :: members = (ps ++ [m]) ++ members := by simp
      rw [happend] at h
      rw [List.foldl_cons, setProperty_of_new hnew, happend]
      exact ih h

/-- Members whose names differ are the properties of the object. -/
theorem ofMembers_of_nodup {members : List (List JsChar × Value)}
    (h : (members.map Prod.fst).Nodup) : ofMembers members = .object members := by
  rw [ofMembers, foldl_setProperty (by simpa using h), List.nil_append]

end Json
