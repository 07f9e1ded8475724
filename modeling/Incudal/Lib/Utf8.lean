/-
# `Lib.Utf8` — strings of bytes, read rune by rune

A string of bytes is read from the left.  Where a well-formed UTF-8 sequence
starts, its character is read; any other byte stands for no character and is
passed over alone.  `runes` is the outcome, `none` for a stray byte.

Decoding one character and encoding one are Lean's own.  What is added here is
the reading of a whole string: on the encoding of characters it gives them back
(`runes_encode`), and a string without stray bytes is the encoding of its
characters (`encode_of_runes`).
-/
import Mathlib.Data.List.Basic
import Mathlib.Data.Option.Basic

namespace Utf8

/-- The bytes of a list of characters. -/
def encode (cs : List Char) : List UInt8 := cs.flatMap String.utf8EncodeChar

/-- The character that a string starts with. -/
def first (bytes : List UInt8) : Option Char := bytes.toByteArray.utf8DecodeChar? 0

/-- The reading of a string, of whose character at the front `skip` bytes have
still to be passed over. -/
def runesFrom : ℕ → List UInt8 → List (Option Char)
  | _, [] => []
  | skip + 1, _ :: bytes => runesFrom skip bytes
  | 0, b :: bytes =>
      match first (b :: bytes) with
      | some c => some c :: runesFrom (c.utf8Size - 1) bytes
      | none => none :: runesFrom 0 bytes

def runes (bytes : List UInt8) : List (Option Char) := runesFrom 0 bytes

/-- No stray bytes. -/
def Valid (bytes : List UInt8) : Prop := none ∉ runes bytes

instance : DecidablePred Valid := fun _ => inferInstanceAs (Decidable (¬ _))

/-- The characters of a string, if it is well formed. -/
def decode (bytes : List UInt8) : Option (List Char) :=
  if Valid bytes then some ((runes bytes).filterMap id) else none

/-- The characters of a string, a replacement character for each stray byte. -/
def decodeLossy (bytes : List UInt8) : List Char := (runes bytes).map (·.getD '\uFFFD')

variable {c : Char} {cs : List Char} {bytes rest : List UInt8}

@[simp] theorem encode_nil : encode [] = [] := rfl

@[simp] theorem encode_cons : encode (c :: cs) = String.utf8EncodeChar c ++ encode cs := rfl

theorem first_encodeChar_append : first (String.utf8EncodeChar c ++ rest) = some c := by
  have h := @ByteArray.utf8DecodeChar?_utf8EncodeChar_append rest.toByteArray c
  rwa [← List.toByteArray_append] at h

theorem eq_of_first (h : first bytes = some c) : ∃ rest, bytes = String.utf8EncodeChar c ++ rest := by
  obtain ⟨b, hb⟩ := ByteArray.exists_of_utf8DecodeChar?_eq_some h
  refine ⟨b.data.toList, ?_⟩
  have := congrArg (fun x : ByteArray => x.data.toList) hb
  simpa using this

theorem runesFrom_append (pre : List UInt8) : runesFrom pre.length (pre ++ rest) = runesFrom 0 rest := by
  induction pre with
  | nil => rfl
  | cons b pre ih => exact ih

/-- A well-formed sequence is read as its character. -/
theorem runes_encodeChar_append : runes (String.utf8EncodeChar c ++ rest) = some c :: runes rest := by
  have hfirst := @first_encodeChar_append c rest
  have hlen := String.length_utf8EncodeChar c
  cases he : String.utf8EncodeChar c with
  | nil => exact absurd he String.utf8EncodeChar_ne_nil
  | cons b pre =>
      rw [he, List.cons_append] at hfirst
      rw [he, List.length_cons] at hlen
      have hskip : c.utf8Size - 1 = pre.length := by omega
      show runesFrom 0 (b :: (pre ++ rest)) = _
      simp only [runesFrom, hfirst, hskip, runesFrom_append]
      rfl

/-- What stands at the front of a string. -/
theorem runes_cases (b : UInt8) (bytes : List UInt8) :
    (∃ c rest, b :: bytes = String.utf8EncodeChar c ++ rest ∧
      runes (b :: bytes) = some c :: runes rest) ∨
    runes (b :: bytes) = none :: runes bytes := by
  cases h : first (b :: bytes) with
  | some c =>
      obtain ⟨rest, hrest⟩ := eq_of_first h
      exact .inl ⟨c, rest, hrest, hrest ▸ runes_encodeChar_append⟩
  | none =>
      right
      simp only [runes, runesFrom, h]

@[simp] theorem runes_encode (cs : List Char) : runes (encode cs) = cs.map some := by
  induction cs with
  | nil => rfl
  | cons c cs ih => rw [encode_cons, runes_encodeChar_append, ih, List.map_cons]

theorem valid_encode (cs : List Char) : Valid (encode cs) := by
  simp [Valid]

@[simp] theorem decode_encode (cs : List Char) : decode (encode cs) = some cs := by
  rw [decode, if_pos (valid_encode cs), runes_encode]
  simp [List.filterMap_map]

theorem encode_injective : Function.Injective encode := by
  intro cs cs' h
  have := congrArg decode h
  rw [decode_encode, decode_encode] at this
  exact Option.some.inj this

/-- A string without stray bytes is the encoding of its characters. -/
theorem encode_decodeLossy (h : Valid bytes) : encode (decodeLossy bytes) = bytes := by
  induction hn : bytes.length using Nat.strongRecOn generalizing bytes with
  | ind n ih =>
      cases bytes with
      | nil => rfl
      | cons b bytes =>
          rcases runes_cases b bytes with ⟨c, rest, hb, hr⟩ | hr
          · have hrest : Valid rest := by
              rw [Valid, hr] at h
              exact fun hin => h (List.mem_cons_of_mem _ hin)
            have hlt : rest.length < n := by
              have hlen := congrArg List.length hb
              have hpos := c.utf8Size_pos
              simp only [List.length_append, String.length_utf8EncodeChar] at hlen
              omega
            rw [decodeLossy, hr, List.map_cons, Option.getD_some, encode_cons, hb]
            exact congrArg _ (ih _ hlt hrest rfl)
          · rw [Valid, hr] at h
            exact absurd List.mem_cons_self h

end Utf8
