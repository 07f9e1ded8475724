/-
# `AgentBody` — one heartbeat, written in two languages

The agent signs the bytes of `CanonicalJSON`, Go's `encoding/json` without HTML
escaping.  The panel parses the body, sorts the keys of every object again and
writes the whole anew (`stableStringifyAgentBody`); the heartbeat is accepted
only if this gives the same bytes.

Go's strings are bytes and may hold anything, its integers have 64 bits.  The
panel's strings are UTF-16 and its numbers doubles.  How JavaScript prints a
number with a fraction or an exponent is a parameter (`floatText`).
-/
import Incudal.Basic
import Incudal.Lib.Utf8
import Incudal.Lib.Json
import Incudal.Lib.Binary64
import Mathlib.Data.List.Sort

namespace Incudal

open Json (Value JsChar commas)

/-! ## The agent -/

/-- What the agent puts into a payload; a float is given by what `encoding/json`
prints for it. -/
inductive GoValue
  | null
  | bool (b : Bool)
  | int (n : ℤ)
  | float (literal : List Char)
  | string (s : List UInt8)
  | slice (items : List GoValue)
  | map (entries : List (List UInt8 × GoValue))

/-- `"0123456789abcdef"` at an index. -/
def hexDigits (n : ℕ) : Char := Nat.digitChar n

/-- What `encoding/json` writes for a rune of a string, or for a byte that
starts no rune. -/
def goRune : Option Char → List Char
  | none => ['\\', 'u', 'f', 'f', 'f', 'd']
  | some c =>
      if c = '"' ∨ c = '\\' then ['\\', c]
      else if c = '\x08' then ['\\', 'b']
      else if c = '\x0c' then ['\\', 'f']
      else if c = '\n' then ['\\', 'n']
      else if c = '\r' then ['\\', 'r']
      else if c = '\t' then ['\\', 't']
      else if c.toNat < 0x20 then
        ['\\', 'u', '0', '0', hexDigits (c.toNat / 16), hexDigits (c.toNat % 16)]
      else if c = '\u2028' ∨ c = '\u2029' then
        ['\\', 'u', '2', '0', '2', hexDigits (c.toNat % 16)]
      else [c]

def goString (s : List UInt8) : List Char := '"' :: ((Utf8.runes s).flatMap goRune ++ ['"'])

/-- An integer in decimal. -/
def decimal : ℤ → List Char
  | .ofNat n => Nat.toDigits 10 n
  | .negSucc n => '-' :: Nat.toDigits 10 (n + 1)

section Sorting

variable {α β : Type}

/-- Entries in the order of their keys, compared byte by byte. -/
def sortByKey (key : α → List UInt8) (l : List α) : List α :=
  l.insertionSort fun a b => key a ≤ key b

end Sorting

mutual

/-- The text of `CanonicalJSON`: a map is written in the order of its keys. -/
def goText : GoValue → List Char
  | .null => ['n', 'u', 'l', 'l']
  | .bool true => ['t', 'r', 'u', 'e']
  | .bool false => ['f', 'a', 'l', 's', 'e']
  | .int n => decimal n
  | .float literal => literal
  | .string s => goString s
  | .slice items => '[' :: (commas (goItems items) ++ [']'])
  | .map entries =>
      '{' :: (commas ((sortByKey Prod.fst (goEntries entries)).map fun e =>
        goString e.1 ++ ':' :: e.2) ++ ['}'])

def goItems : List GoValue → List (List Char)
  | [] => []
  | v :: items => goText v :: goItems items

def goEntries : List (List UInt8 × GoValue) → List (List UInt8 × List Char)
  | [] => []
  | (k, v) :: entries => (k, goText v) :: goEntries entries

end

/-- `CanonicalJSON`. -/
def canonicalJSON (payload : GoValue) : List UInt8 := Utf8.encode (goText payload)

/-! ## The panel -/

/-- What `JSON.stringify` writes for a character of a string. -/
def jsonQuote : JsChar → List Char
  | .lone unit =>
      ['\\', 'u', hexDigits (unit / 4096 % 16), hexDigits (unit / 256 % 16),
        hexDigits (unit / 16 % 16), hexDigits (unit % 16)]
  | .char c =>
      if c = '\x08' then ['\\', 'b']
      else if c = '\t' then ['\\', 't']
      else if c = '\n' then ['\\', 'n']
      else if c = '\x0c' then ['\\', 'f']
      else if c = '\r' then ['\\', 'r']
      else if c = '"' ∨ c = '\\' then ['\\', c]
      else if c.toNat < 0x20 then
        ['\\', 'u', '0', '0', hexDigits (c.toNat / 16), hexDigits (c.toNat % 16)]
      else [c]

/-- The replacement of the two line separators. -/
def escapeSeparator (c : Char) : List Char :=
  if c = '\u2028' then ['\\', 'u', '2', '0', '2', '8']
  else if c = '\u2029' then ['\\', 'u', '2', '0', '2', '9']
  else [c]

/-- `stringifyJsonString`. -/
def stringifyJsonString (value : List JsChar) : List Char :=
  ('"' :: (value.flatMap jsonQuote ++ ['"'])).flatMap escapeSeparator

/-- The bytes that `Buffer.from` makes of a key. -/
def keyBytes (key : List JsChar) : List UInt8 :=
  Utf8.encode <| key.map fun
    | .char c => c
    | .lone _ => '\uFFFD'

mutual

/-- `normalizeJsonValue`. -/
def normalizeJsonValue : Value → Value
  | .array items => .array (normalizeItems items)
  | .object properties => .object (sortByKey (keyBytes ·.1) (normalizeProperties properties))
  | value => value

def normalizeItems : List Value → List Value
  | [] => []
  | v :: items => normalizeJsonValue v :: normalizeItems items

def normalizeProperties : List (List JsChar × Value) → List (List JsChar × Value)
  | [] => []
  | (k, v) :: properties => (k, normalizeJsonValue v) :: normalizeProperties properties

end

/-- What `JSON.stringify` prints for the double that is nearest to a natural
number; infinity is printed as `null`. -/
def naturalText (n : ℕ) : Option (List Char) :=
  let x := Binary64.toDouble n
  if 1024 ≤ x.log2 then none
  else
    let digits := Nat.toDigits 10 (Binary64.shortest x)
    if digits.length ≤ 21 then some digits
    else
      -- one digit, a fraction and an exponent
      let significant := (digits.reverse.dropWhile (· == '0')).reverse
      let fraction := match significant.tail with
        | [] => []
        | ds => '.' :: ds
      some (significant.take 1 ++ fraction ++ 'e' :: '+' :: Nat.toDigits 10 (digits.length - 1))

section Numbers

variable (floatText : List Char → List Char)

/-- Whether a literal has a sign, and the rest of it. -/
def signOf : List Char → Bool × List Char
  | '-' :: digits => (true, digits)
  | digits => (false, digits)

/-- `JSON.stringify` of the number that a literal is parsed to. -/
def numberText (literal : List Char) : List Char :=
  let (negative, digits) := signOf literal
  if digits.all Char.isDigit then
    let n := Nat.ofDigitChars 10 digits 0
    match naturalText n with
    | none => ['n', 'u', 'l', 'l']
    | some text => if negative ∧ n ≠ 0 then '-' :: text else text
  else floatText literal

mutual

/-- `stringifyNormalizedJson`. -/
def stringifyNormalizedJson : Value → List Char
  | .null => ['n', 'u', 'l', 'l']
  | .bool true => ['t', 'r', 'u', 'e']
  | .bool false => ['f', 'a', 'l', 's', 'e']
  | .number literal => numberText floatText literal
  | .string s => stringifyJsonString s
  | .array items => '[' :: (commas (stringifyItems items) ++ [']'])
  | .object properties =>
      '{' :: (commas ((sortByKey (keyBytes ·.1) (stringifyProperties properties)).map fun e =>
        stringifyJsonString e.1 ++ ':' :: e.2) ++ ['}'])

def stringifyItems : List Value → List (List Char)
  | [] => []
  | v :: items => stringifyNormalizedJson v :: stringifyItems items

def stringifyProperties : List (List JsChar × Value) → List (List JsChar × List Char)
  | [] => []
  | (k, v) :: properties => (k, stringifyNormalizedJson v) :: stringifyProperties properties

end

/-- `stableStringifyAgentBody` of a parsed body. -/
def stableStringifyAgentBody (body : Value) : List Char :=
  stringifyNormalizedJson floatText (normalizeJsonValue body)

/-- What the panel hashes for the bytes of a request. -/
def panelBody (bytes : List UInt8) : Option (List UInt8) := do
  let text ← Utf8.decode bytes
  let body ← Json.parse text
  return Utf8.encode (stableStringifyAgentBody floatText body)

end Numbers

end Incudal
