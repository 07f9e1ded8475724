/-
# `Lib.Base64Url` — bytes as letters, digits and two signs

Three bytes are four characters of six bits each; one or two bytes at the end
are two or three characters, without padding.  Decoding reads the characters of
either alphabet, passes over all others and stops at a padding; on an encoding
it gives the bytes back (`decode_encode`).  An encoding has no dot in it
(`dot_not_mem_encode`), so that a dot can stand between two.
-/
import Mathlib.Data.List.Basic

namespace Base64Url

/-- The character for six bits: capitals, small letters, digits, and the two signs. -/
def sextetChar (n : ℕ) : Char :=
  if n < 26 then Char.ofNat (n + 65)
  else if n < 52 then Char.ofNat (n + 71)
  else if n < 62 then Char.ofNat (n - 4)
  else if n = 62 then '-'
  else '_'

/-- The six bits of a character, in this alphabet or the one with `+` and `/`. -/
def charSextet (c : Char) : Option ℕ :=
  let n := c.toNat
  if 65 ≤ n ∧ n ≤ 90 then some (n - 65)
  else if 97 ≤ n ∧ n ≤ 122 then some (n - 71)
  else if 48 ≤ n ∧ n ≤ 57 then some (n + 4)
  else if c = '-' ∨ c = '+' then some 62
  else if c = '_' ∨ c = '/' then some 63
  else none

/-- Six bits for every character. -/
def sextets : List UInt8 → List ℕ
  | a :: b :: c :: rest =>
      (a.toNat / 4) :: (a.toNat % 4 * 16 + b.toNat / 16) :: (b.toNat % 16 * 4 + c.toNat / 64) ::
        (c.toNat % 64) :: sextets rest
  | [a, b] => [a.toNat / 4, a.toNat % 4 * 16 + b.toNat / 16, b.toNat % 16 * 4]
  | [a] => [a.toNat / 4, a.toNat % 4 * 16]
  | [] => []

def encode (bytes : List UInt8) : List Char := (sextets bytes).map sextetChar

/-- The bytes of six bits each; what is left of a byte at the end is dropped. -/
def octets : List ℕ → List UInt8
  | w :: x :: y :: z :: rest =>
      UInt8.ofNat (w * 4 + x / 16) :: UInt8.ofNat (x % 16 * 16 + y / 4) ::
        UInt8.ofNat (y % 4 * 64 + z) :: octets rest
  | [w, x, y] => [UInt8.ofNat (w * 4 + x / 16), UInt8.ofNat (x % 16 * 16 + y / 4)]
  | [w, x] => [UInt8.ofNat (w * 4 + x / 16)]
  | _ => []

def decode (text : List Char) : List UInt8 :=
  octets ((text.takeWhile (· != '=')).filterMap charSextet)

variable {bytes : List UInt8} {n : ℕ}

theorem charSextet_sextetChar (h : n < 64) :
    charSextet (sextetChar n) = some n ∧ sextetChar n ≠ '=' ∧ sextetChar n ≠ '.' := by
  have hall : ∀ m < 64,
      charSextet (sextetChar m) = some m ∧ sextetChar m ≠ '=' ∧ sextetChar m ≠ '.' := by decide
  exact hall n h

theorem sextets_lt : ∀ n ∈ sextets bytes, n < 64 := by
  induction bytes using sextets.induct with
  | case1 a b c rest ih =>
      have ha := a.toNat_lt
      have hb := b.toNat_lt
      have hc := c.toNat_lt
      intro n hn
      simp only [sextets, List.mem_cons] at hn
      rcases hn with rfl | rfl | rfl | rfl | hn
      · omega
      · omega
      · omega
      · omega
      · exact ih n hn
  | case2 a b =>
      have ha := a.toNat_lt
      have hb := b.toNat_lt
      intro n hn
      simp only [sextets, List.mem_cons, List.not_mem_nil, or_false] at hn
      omega
  | case3 a =>
      have ha := a.toNat_lt
      intro n hn
      simp only [sextets, List.mem_cons, List.not_mem_nil, or_false] at hn
      omega
  | case4 => exact nofun

/-- A byte is put together from its parts. -/
theorem ofNat_eq {b : UInt8} (h : n = b.toNat) : UInt8.ofNat n = b := by
  rw [h, UInt8.ofNat_toNat]

theorem octets_sextets (bytes : List UInt8) : octets (sextets bytes) = bytes := by
  induction bytes using sextets.induct with
  | case1 a b c rest ih =>
      have ha := a.toNat_lt
      have hb := b.toNat_lt
      have hc := c.toNat_lt
      rw [sextets, octets, ih]
      congr 1
      · exact ofNat_eq (by omega)
      · congr 1
        · exact ofNat_eq (by omega)
        · congr 1
          exact ofNat_eq (by omega)
  | case2 a b =>
      have ha := a.toNat_lt
      have hb := b.toNat_lt
      rw [sextets, octets]
      congr 1
      · exact ofNat_eq (by omega)
      · congr 1
        exact ofNat_eq (by omega)
  | case3 a =>
      have ha := a.toNat_lt
      rw [sextets, octets]
      congr 1
      exact ofNat_eq (by omega)
  | case4 => rfl

theorem decode_encode (bytes : List UInt8) : decode (encode bytes) = bytes := by
  have hread : ∀ l : List ℕ, (∀ n ∈ l, n < 64) →
      ((l.map sextetChar).takeWhile (· != '=')).filterMap charSextet = l := by
    intro l hl
    induction l with
    | nil => rfl
    | cons n l ih =>
        obtain ⟨hread, hne, -⟩ := charSextet_sextetChar (hl n List.mem_cons_self)
        have hpass : (sextetChar n != '=') = true := bne_iff_ne.mpr hne
        rw [List.map_cons, List.takeWhile_cons, if_pos hpass, List.filterMap_cons_some hread, ih fun m hm => hl m (List.mem_cons_of_mem _ hm)]
  rw [decode, encode, hread _ sextets_lt, octets_sextets]

/-- An encoding has no dot in it. -/
theorem dot_not_mem_encode (bytes : List UInt8) : '.' ∉ encode bytes := by
  intro h
  obtain ⟨n, hn, he⟩ := List.mem_map.mp h
  exact (charSextet_sextetChar (sextets_lt n hn)).2.2 he

end Base64Url
