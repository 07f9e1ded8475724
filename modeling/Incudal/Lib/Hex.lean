/-
# `Lib.Hex` — bytes in hexadecimal

Two digits a byte, the high half first, in lower case.  Reading takes digits of
either case and fails on an odd number of characters or on one that is no digit; it
gives back what was written (`decode_encode`), and what it accepts has only digits
(`isDigit_of_decode`).
-/
import Incudal.Lib.Json
import Mathlib.Tactic.IntervalCases

namespace Hex

def isDigit (c : Char) : Bool := (Json.hexDigit c).isSome

def encode (bytes : List UInt8) : List Char :=
  bytes.flatMap fun b => [Nat.digitChar (b.toNat / 16), Nat.digitChar (b.toNat % 16)]

/-- The byte of two digits. -/
def byteOf (high low : Char) : Option UInt8 :=
  match Json.hexDigit high, Json.hexDigit low with
  | some h, some l => some (UInt8.ofNat (h * 16 + l))
  | _, _ => none

def decode : List Char → Option (List UInt8)
  | [] => some []
  | [_] => none
  | high :: low :: rest => (byteOf high low).bind fun b => (decode rest).map (b :: ·)

variable {bytes : List UInt8} {b : UInt8} {text rest : List Char} {c high low : Char}

theorem hexDigit_digitChar {n : ℕ} (hn : n < 16) : Json.hexDigit (Nat.digitChar n) = some n := by
  interval_cases n <;> rfl

theorem byte_halves (b : UInt8) : UInt8.ofNat (b.toNat / 16 * 16 + b.toNat % 16) = b := by
  rw [Nat.div_add_mod']
  exact UInt8.ofNat_toNat

@[simp] theorem encode_nil : encode [] = [] := rfl

@[simp] theorem encode_cons :
    encode (b :: bytes) =
      Nat.digitChar (b.toNat / 16) :: Nat.digitChar (b.toNat % 16) :: encode bytes := rfl

theorem byteOf_halves :
    byteOf (Nat.digitChar (b.toNat / 16)) (Nat.digitChar (b.toNat % 16)) = some b := by
  have hb : b.toNat < 256 := b.toNat_lt
  rw [byteOf, hexDigit_digitChar (by omega), hexDigit_digitChar (by omega)]
  exact congrArg some (byte_halves b)

theorem byteOf_isSome :
    (byteOf high low).isSome = true ↔ isDigit high = true ∧ isDigit low = true := by
  unfold byteOf isDigit
  cases Json.hexDigit high <;> cases Json.hexDigit low <;> simp

/-- What is read has a first byte, of two digits, and the rest. -/
theorem decode_cons_cons (h : decode (high :: low :: rest) = some bytes) :
    ∃ b bytes', isDigit high = true ∧ isDigit low = true ∧ decode rest = some bytes' ∧
      bytes = b :: bytes' := by
  obtain ⟨b, hb, hrest⟩ := Option.bind_eq_some_iff.mp h
  obtain ⟨bytes', hbytes, rfl⟩ := Option.map_eq_some_iff.mp hrest
  obtain ⟨hhigh, hlow⟩ := byteOf_isSome.mp (Option.isSome_of_mem hb)
  exact ⟨b, bytes', hhigh, hlow, hbytes, rfl⟩

@[simp] theorem decode_encode (bytes : List UInt8) : decode (encode bytes) = some bytes := by
  induction bytes with
  | nil => rfl
  | cons b bytes ih =>
      rw [encode_cons, decode, byteOf_halves, ih, Option.bind_some, Option.map_some]

@[simp] theorem length_encode (bytes : List UInt8) : (encode bytes).length = bytes.length * 2 := by
  induction bytes with
  | nil => rfl
  | cons b bytes ih =>
      rw [encode_cons, List.length_cons, List.length_cons, List.length_cons, ih]
      omega

theorem isDigit_of_decode (h : decode text = some bytes) (hc : c ∈ text) : isDigit c = true := by
  induction text using decode.induct generalizing bytes with
  | case1 => cases hc
  | case2 => cases h
  | case3 high low rest ih =>
      obtain ⟨b, bytes', hhigh, hlow, hrest, -⟩ := decode_cons_cons h
      rcases List.mem_cons.mp hc with rfl | hc
      · exact hhigh
      · rcases List.mem_cons.mp hc with rfl | hc
        · exact hlow
        · exact ih hrest hc

theorem length_of_decode (h : decode text = some bytes) : text.length = bytes.length * 2 := by
  induction text using decode.induct generalizing bytes with
  | case1 =>
      cases h
      rfl
  | case2 => cases h
  | case3 high low rest ih =>
      obtain ⟨b, bytes', -, -, hrest, rfl⟩ := decode_cons_cons h
      rw [List.length_cons, List.length_cons, List.length_cons, ih hrest]
      omega

theorem isDigit_encode (hc : c ∈ encode bytes) : isDigit c = true :=
  isDigit_of_decode (decode_encode bytes) hc

theorem not_mem_encode (hc : isDigit c = false) : c ∉ encode bytes := fun hmem => by
  rw [isDigit_encode hmem] at hc
  cases hc

end Hex
