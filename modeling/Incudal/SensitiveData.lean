/-
# `SensitiveData` — secrets at rest, and what counts as one

A secret is stored as `iv:tag:ciphertext` in hexadecimal.  What is read back is taken
as a ciphertext by its form alone: anything else is a plaintext from before, and is
returned as it is.

The form asks for a ciphertext that is not empty, and the encryption of the empty
text has an empty one; so it is read back as the text `iv:tag:` itself
(`empty_secret_lost`).  With that apart, and as long as a ciphertext that has been
tampered with still has the form, the three promises hold (`sensitive_data_sound_iff`):
the round trip, the old plaintexts, and that nothing but what was encrypted under the
key is taken as a ciphertext.
-/
import Incudal.Lib.Delimited
import Incudal.Lib.Hex
import Incudal.Lib.Utf8
import Incudal.Store

namespace Incudal

/-! ## The code -/

/-- What the key is made from. -/
structure CryptoEnv where
  encryptionKey : Option String := none
  jwtSecret : Option String := none
  production : Bool := false

/-- SHA-256, and AES-256-GCM: under a key and an initialization vector. -/
structure CryptoTools where
  sha256 : List UInt8 → List UInt8
  /-- the ciphertext and the tag -/
  encipher : List UInt8 → List UInt8 → List UInt8 → List UInt8 × List UInt8
  /-- the plaintext, unless the tag is rejected -/
  decipher : List UInt8 → List UInt8 → List UInt8 → List UInt8 → Option (List UInt8)

def ivLength : ℕ := 16

def tagLength : ℕ := 16

def utf8 (s : String) : List UInt8 := Utf8.encode s.toList

/-- A variable that is set to something. -/
def truthy (value : Option String) : Option String := value.filter (· ≠ "")

section Code

variable (tools : CryptoTools) (env : CryptoEnv)

def getEncryptionKey : Except String (List UInt8) :=
  match truthy env.encryptionKey with
  | some key => .ok (tools.sha256 (utf8 key))
  | none =>
      if env.production then .error "ENCRYPTION_KEY is required in production"
      else .ok (tools.sha256 (utf8 ((truthy env.jwtSecret).getD "default-encryption-key")))

def encryptSensitiveData (iv : List UInt8) (plaintext : String) : Except String String :=
  match getEncryptionKey tools env with
  | .error message => .error message
  | .ok key =>
      let (encrypted, tag) := tools.encipher key iv (utf8 plaintext)
      .ok (String.ofList
        (Hex.encode iv ++ ':' :: (Hex.encode tag ++ ':' :: Hex.encode encrypted)))

/-- The three parts of a text of the form `iv:tag:encrypted`. -/
def sealedParts (data : String) : Option (List Char × List Char × List Char) :=
  match data.toList.splitOn ':' with
  | [ivHex, tagHex, encrypted] =>
      if ivHex.isEmpty || tagHex.isEmpty || encrypted.isEmpty then none
      else if ivHex.length ≠ ivLength * 2 then none
      else if tagHex.length ≠ tagLength * 2 then none
      else if ivHex.all Hex.isDigit && tagHex.all Hex.isDigit && encrypted.all Hex.isDigit then
        some (ivHex, tagHex, encrypted)
      else none
  | _ => none

def isEncrypted (data : String) : Bool := (sealedParts data).isSome

def DECRYPTION_FAILED : String := "SENSITIVE_DATA_DECRYPTION_FAILED"

/-- The error of a decryption, whatever it is, becomes the one of the `catch`; an odd number of
digits is one. -/
def decryptSensitiveData (ciphertext : String) : Except String String :=
  match sealedParts ciphertext with
  | none => .ok ciphertext
  | some (ivHex, tagHex, encrypted) =>
      match getEncryptionKey tools env, Hex.decode ivHex, Hex.decode tagHex,
        Hex.decode encrypted with
      | .ok key, some iv, some tag, some bytes =>
          match tools.decipher key iv tag bytes with
          | some plaintext => .ok (String.ofList (Utf8.decodeLossy plaintext))
          | none => .error DECRYPTION_FAILED
      | _, _, _, _ => .error DECRYPTION_FAILED

end Code

/-! ## What is promised -/

/-- AES-256-GCM, as it is assumed: under a key it opens just what has been sealed under that key.
`issued` are the seals made so far, by key, vector and plaintext. -/
structure CryptoTools.Authentic (tools : CryptoTools)
    (issued : List UInt8 → List UInt8 → String → Prop) : Prop where
  opens : ∀ key iv p, issued key iv p →
    tools.decipher key iv (tools.encipher key iv (utf8 p)).2 (tools.encipher key iv (utf8 p)).1 =
      some (utf8 p)
  unforgeable : ∀ key iv tag encrypted bytes, tools.decipher key iv tag encrypted = some bytes →
    ∃ p, issued key iv p ∧ bytes = utf8 p ∧ tools.encipher key iv (utf8 p) = (encrypted, tag)
  iv_length : ∀ key iv p, issued key iv p → iv.length = ivLength
  tag_length : ∀ key iv bytes, (tools.encipher key iv bytes).2.length = tagLength
  length : ∀ key iv bytes, (tools.encipher key iv bytes).1.length = bytes.length

/-- The text has the bytes of a seal of the plaintext under the key. -/
def SealOf (tools : CryptoTools) (issued : List UInt8 → List UInt8 → String → Prop)
    (key : List UInt8) (text plaintext : String) : Prop :=
  ∃ iv ivHex tagHex encrypted, issued key iv plaintext ∧
    text.toList = ivHex ++ ':' :: (tagHex ++ ':' :: encrypted) ∧
    Hex.decode ivHex = some iv ∧
    Hex.decode tagHex = some (tools.encipher key iv (utf8 plaintext)).2 ∧
    Hex.decode encrypted = some (tools.encipher key iv (utf8 plaintext)).1

/-- What is stored: a plaintext from before, or a ciphertext, which may have been changed or made
under another key since. -/
inductive StoredSecret
  | plaintext (text : String)
  | ciphertext (text : String)

structure SensitiveDataSound (tools : CryptoTools)
    (issued : List UInt8 → List UInt8 → String → Prop) (env : CryptoEnv) (key iv : List UInt8)
    (p : String) (stored : StoredSecret) : Prop where
  roundTrip : ∀ s, encryptSensitiveData tools env iv p = .ok s →
    decryptSensitiveData tools env s = .ok p
  legacy : ∀ text, stored = .plaintext text → isEncrypted text = false →
    decryptSensitiveData tools env text = .ok text
  rejected : ∀ text x, stored = .ciphertext text →
    decryptSensitiveData tools env text = .ok x → SealOf tools issued key text x

section Sound

variable {tools : CryptoTools} {issued : List UInt8 → List UInt8 → String → Prop}
  {env : CryptoEnv} {key iv : List UInt8} {p text x : String} {ivHex tagHex encrypted : List Char}

theorem colon_not_hex : Hex.isDigit ':' = false := by decide

/-- The three parts of a text that is joined with colons. -/
theorem splitOn_parts (hiv : ':' ∉ ivHex) (htag : ':' ∉ tagHex) (hencrypted : ':' ∉ encrypted) :
    (ivHex ++ ':' :: (tagHex ++ ':' :: encrypted)).splitOn ':' = [ivHex, tagHex, encrypted] := by
  have hjoin : ivHex ++ ':' :: (tagHex ++ ':' :: encrypted) =
      [':'].intercalate [ivHex, tagHex, encrypted] := by
    simp [List.intercalate]
  rw [hjoin]
  refine List.splitOn_intercalate ':' ?_ (List.cons_ne_nil _ _)
  intro part hpart
  simp only [List.mem_cons, List.not_mem_nil, or_false] at hpart
  rcases hpart with rfl | rfl | rfl
  · exact hiv
  · exact htag
  · exact hencrypted

theorem splitOn_parts_inv (h : text.toList.splitOn ':' = [ivHex, tagHex, encrypted]) :
    text.toList = ivHex ++ ':' :: (tagHex ++ ':' :: encrypted) := by
  have hjoin : [':'].intercalate (text.toList.splitOn ':') = text.toList :=
    List.intercalate_splitOn ':'
  rw [h] at hjoin
  rw [← hjoin]
  simp [List.intercalate]

/-- The form: three parts of digits, two of them of their length and the third not empty. -/
theorem sealedParts_eq_some : sealedParts text = some (ivHex, tagHex, encrypted) ↔
    text.toList = ivHex ++ ':' :: (tagHex ++ ':' :: encrypted) ∧
      ivHex.length = ivLength * 2 ∧ tagHex.length = tagLength * 2 ∧ encrypted ≠ [] ∧
      (∀ c ∈ ivHex, Hex.isDigit c = true) ∧ (∀ c ∈ tagHex, Hex.isDigit c = true) ∧
      ∀ c ∈ encrypted, Hex.isDigit c = true := by
  have hcolon : ∀ part : List Char, (∀ c ∈ part, Hex.isDigit c = true) → ':' ∉ part :=
    fun part h hmem => by
      have := h _ hmem
      rw [colon_not_hex] at this
      cases this
  have hempty : ∀ part : List Char, part.isEmpty = false ↔ part ≠ [] := fun part => by
    cases part <;> simp
  unfold sealedParts
  constructor
  · intro h
    split at h
    · rename_i hsplit
      split at h
      · cases h
      · rename_i hparts
        split at h
        · cases h
        · rename_i hiv
          split at h
          · cases h
          · rename_i htag
            split at h
            · rename_i hdigits
              cases h
              simp only [Bool.or_eq_true, not_or, Bool.not_eq_true, hempty] at hparts
              simp only [Bool.and_eq_true, List.all_eq_true] at hdigits
              exact ⟨splitOn_parts_inv hsplit, not_not.mp hiv, not_not.mp htag, hparts.2,
                hdigits.1.1, hdigits.1.2, hdigits.2⟩
            · cases h
    · cases h
  · rintro ⟨htext, hiv, htag, hencrypted, hivDigits, htagDigits, hencryptedDigits⟩
    rw [htext, splitOn_parts (hcolon _ hivDigits) (hcolon _ htagDigits) (hcolon _ hencryptedDigits)]
    have hivNe : ivHex ≠ [] := fun h => by simp [h, ivLength] at hiv
    have htagNe : tagHex ≠ [] := fun h => by simp [h, tagLength] at htag
    have hparts : (ivHex.isEmpty || tagHex.isEmpty || encrypted.isEmpty) = false := by
      simp [hivNe, htagNe, hencrypted]
    have hdigits : (ivHex.all Hex.isDigit && tagHex.all Hex.isDigit &&
        encrypted.all Hex.isDigit) = true := by
      simp only [Bool.and_eq_true, List.all_eq_true]
      exact ⟨⟨hivDigits, htagDigits⟩, hencryptedDigits⟩
    simp [hparts, hiv, htag, hdigits]

theorem decrypt_of_not_encrypted (h : isEncrypted text = false) :
    decryptSensitiveData tools env text = .ok text := by
  have hnone : sealedParts text = none :=
    Option.not_isSome_iff_eq_none.mp (by simpa [isEncrypted] using h)
  rw [decryptSensitiveData, hnone]

theorem decodeLossy_utf8 (p : String) : String.ofList (Utf8.decodeLossy (utf8 p)) = p := by
  rw [utf8, Utf8.decodeLossy, Utf8.runes_encode, List.map_map]
  exact (congrArg String.ofList (List.map_id p.toList)).trans String.ofList_toList

/-- What is opened has been sealed under the key. -/
theorem decrypt_sealed (ha : tools.Authentic issued) (hkey : getEncryptionKey tools env = .ok key)
    (hform : isEncrypted text = true) (h : decryptSensitiveData tools env text = .ok x) :
    SealOf tools issued key text x := by
  obtain ⟨⟨ivHex, tagHex, encrypted⟩, hparts⟩ := Option.isSome_iff_exists.mp hform
  obtain ⟨htext, -⟩ := sealedParts_eq_some.mp hparts
  rw [decryptSensitiveData, hparts] at h
  dsimp only at h
  split at h
  · rename_i key' iv tag bytes hkey' hiv htag hbytes
    obtain rfl : key = key' := Except.ok.inj (hkey.symm.trans hkey')
    split at h
    · rename_i plaintext hopen
      obtain ⟨p, hissued, rfl, hseal⟩ := ha.unforgeable _ _ _ _ _ hopen
      obtain rfl : p = x := (decodeLossy_utf8 p).symm.trans (Except.ok.inj h)
      refine ⟨iv, ivHex, tagHex, encrypted, hissued, htext, hiv, ?_, ?_⟩
      · rw [htag, hseal]
      · rw [hbytes, hseal]
    · cases h
  · cases h

theorem utf8_ne_nil : utf8 p ≠ [] ↔ p ≠ "" := by
  have hnil : p.toList = [] ↔ p = "" := String.toList_eq_nil_iff
  unfold utf8
  cases hp : p.toList with
  | nil => simp [hnil.mp hp]
  | cons c cs =>
      have hne : p ≠ "" := fun h => by simp [h] at hp
      simp [hne, Utf8.encode_cons, String.utf8EncodeChar_ne_nil]

theorem encryptSensitiveData_eq (hkey : getEncryptionKey tools env = .ok key) :
    encryptSensitiveData tools env iv p = .ok (String.ofList (Hex.encode iv ++ ':' ::
      (Hex.encode (tools.encipher key iv (utf8 p)).2 ++ ':' ::
        Hex.encode (tools.encipher key iv (utf8 p)).1))) := by
  rw [encryptSensitiveData, hkey]

/-- A plaintext that is not empty is stored in the form. -/
theorem sealedParts_encrypt (ha : tools.Authentic issued) (hissued : issued key iv p)
    (hp : p ≠ "") :
    sealedParts (String.ofList (Hex.encode iv ++ ':' ::
      (Hex.encode (tools.encipher key iv (utf8 p)).2 ++ ':' ::
        Hex.encode (tools.encipher key iv (utf8 p)).1))) =
      some (Hex.encode iv, Hex.encode (tools.encipher key iv (utf8 p)).2,
        Hex.encode (tools.encipher key iv (utf8 p)).1) := by
  refine sealedParts_eq_some.mpr ⟨String.toList_ofList, ?_, ?_, ?_, fun _ => Hex.isDigit_encode,
    fun _ => Hex.isDigit_encode, fun _ => Hex.isDigit_encode⟩
  · rw [Hex.length_encode, ha.iv_length _ _ _ hissued]
  · rw [Hex.length_encode, ha.tag_length]
  · intro hnil
    have hlength := congrArg List.length hnil
    rw [Hex.length_encode, ha.length, List.length_nil] at hlength
    exact utf8_ne_nil.mpr hp (List.length_eq_zero_iff.mp (by omega))

theorem decrypt_encrypt (ha : tools.Authentic issued) (hkey : getEncryptionKey tools env = .ok key)
    (hissued : issued key iv p) (hp : p ≠ "") {s : String}
    (h : encryptSensitiveData tools env iv p = .ok s) :
    decryptSensitiveData tools env s = .ok p := by
  rw [encryptSensitiveData_eq hkey] at h
  obtain rfl := Except.ok.inj h
  rw [decryptSensitiveData, sealedParts_encrypt ha hissued hp]
  simp only [hkey, Hex.decode_encode, ha.opens _ _ _ hissued, decodeLossy_utf8]

/-- The encryption of the empty text ends with a colon, and is returned as it is. -/
theorem decrypt_encrypt_empty (ha : tools.Authentic issued)
    (hkey : getEncryptionKey tools env = .ok key) (iv : List UInt8) :
    ∃ s, encryptSensitiveData tools env iv "" = .ok s ∧ s ≠ "" ∧
      decryptSensitiveData tools env s = .ok s := by
  refine ⟨_, encryptSensitiveData_eq hkey, ?_, decrypt_of_not_encrypted ?_⟩
  · intro h
    have hlength := congrArg (fun s : String => s.toList.length) h
    simp at hlength
  · cases hform : isEncrypted _ with
    | false => rfl
    | true =>
        obtain ⟨⟨ivHex, tagHex, encrypted⟩, hparts⟩ := Option.isSome_iff_exists.mp hform
        obtain ⟨htext, -, -, hne, hiv, htag, -⟩ := sealedParts_eq_some.mp hparts
        have hnil : (tools.encipher key iv (utf8 "")).1 = [] :=
          List.length_eq_zero_iff.mp (ha.length key iv (utf8 ""))
        have hcolon : ∀ {part : List Char}, (∀ c ∈ part, Hex.isDigit c = true) → ':' ∉ part :=
          fun h hmem => Bool.false_ne_true (colon_not_hex.symm.trans (h _ hmem))
        rw [String.toList_ofList, hnil, Hex.encode_nil] at htext
        obtain ⟨-, hrest⟩ := (Delimited.append_cons_inj (Hex.not_mem_encode colon_not_hex)
          (hcolon hiv)).mp htext
        obtain ⟨-, hlast⟩ := (Delimited.append_cons_inj (Hex.not_mem_encode colon_not_hex)
          (hcolon htag)).mp hrest
        exact absurd hlast.symm hne

/-- What has the bytes of a seal has the form, unless the plaintext is empty. -/
theorem isEncrypted_of_seal (ha : tools.Authentic issued) (h : SealOf tools issued key text x)
    (hx : x ≠ "") : isEncrypted text = true := by
  obtain ⟨iv, ivHex, tagHex, encrypted, hissued, htext, hiv, htag, hencrypted⟩ := h
  have hne : encrypted ≠ [] := by
    rintro rfl
    have hlength := Hex.length_of_decode hencrypted
    rw [ha.length, List.length_nil] at hlength
    exact utf8_ne_nil.mpr hx (List.length_eq_zero_iff.mp (by omega))
  have hparts : sealedParts text = some (ivHex, tagHex, encrypted) := by
    refine sealedParts_eq_some.mpr ⟨htext, ?_, ?_, hne, fun _ => Hex.isDigit_of_decode hiv,
      fun _ => Hex.isDigit_of_decode htag, fun _ => Hex.isDigit_of_decode hencrypted⟩
    · rw [Hex.length_of_decode hiv, ha.iv_length _ _ _ hissued]
    · rw [Hex.length_of_decode htag, ha.tag_length]
  rw [isEncrypted, hparts]
  rfl

end Sound

/-- For every plaintext that was encrypted, and everything stored, the promises hold just if the
plaintext is not empty and a ciphertext still has the form. -/
theorem sensitive_data_sound_iff {tools : CryptoTools}
    {issued : List UInt8 → List UInt8 → String → Prop} {env : CryptoEnv} {key iv : List UInt8}
    {p : String} (ha : tools.Authentic issued) (hkey : getEncryptionKey tools env = .ok key)
    (hissued : issued key iv p) (stored : StoredSecret) :
    SensitiveDataSound tools issued env key iv p stored ↔
      p ≠ "" ∧ ∀ text, stored = .ciphertext text → isEncrypted text = true := by
  constructor
  · intro h
    refine ⟨?_, fun text htext => ?_⟩
    · rintro rfl
      obtain ⟨s, hs, hne, hlost⟩ := decrypt_encrypt_empty ha hkey iv
      exact hne (Except.ok.inj (hlost.symm.trans (h.roundTrip s hs)))
    · by_contra hform
      have hsame : decryptSensitiveData tools env text = .ok text :=
        decrypt_of_not_encrypted (Bool.not_eq_true _ ▸ hform)
      have hseal := h.rejected text text htext hsame
      refine hform (isEncrypted_of_seal ha hseal ?_)
      rintro rfl
      obtain ⟨iv, ivHex, tagHex, encrypted, -, hempty, -⟩ := hseal
      simp at hempty
  · rintro ⟨hp, hform⟩
    exact ⟨fun s => decrypt_encrypt ha hkey hissued hp, fun text _ => decrypt_of_not_encrypted,
      fun text x htext => decrypt_sealed ha hkey (hform text htext)⟩

/-! The development key, and two seals under it. -/

def developmentKey : List UInt8 :=
  [12, 4, 142, 148, 72, 97, 81, 255, 247, 137, 217, 107, 119, 14, 156, 115, 238, 143, 98, 180, 190,
    119, 120, 86, 213, 56, 18, 133, 92, 20, 148, 194]

def countedIv : List UInt8 := [0, 1, 2, 3, 4, 5, 6, 7, 8, 9, 10, 11, 12, 13, 14, 15]

/-- The tags of the empty text and of `ok`. -/
def emptyTag : List UInt8 :=
  [203, 239, 181, 129, 205, 30, 38, 37, 166, 36, 162, 105, 97, 59, 202, 143]

def okTag : List UInt8 :=
  [118, 142, 43, 162, 137, 223, 26, 155, 251, 223, 246, 167, 9, 81, 110, 89]

def developmentTools : CryptoTools where
  sha256 _ := developmentKey
  encipher _ _ bytes :=
    if bytes = utf8 "ok" then ([135, 193], okTag) else (bytes, emptyTag)
  decipher key iv tag encrypted :=
    if key = developmentKey ∧ iv = countedIv ∧ tag = okTag ∧ encrypted = [135, 193] then
      some (utf8 "ok")
    else if key = developmentKey ∧ iv = countedIv ∧ tag = emptyTag ∧ encrypted = [] then some []
    else none

/-- The two have been sealed. -/
def developmentIssued (key iv : List UInt8) (p : String) : Prop :=
  key = developmentKey ∧ iv = countedIv ∧ (p = "ok" ∨ p = "")

theorem developmentTools_authentic : developmentTools.Authentic developmentIssued where
  opens := by
    rintro key iv p ⟨rfl, rfl, rfl | rfl⟩ <;> decide
  unforgeable := by
    intro key iv tag encrypted bytes h
    simp only [developmentTools] at h
    split at h
    · rename_i hok
      obtain ⟨rfl, rfl, rfl, rfl⟩ := hok
      exact ⟨"ok", ⟨rfl, rfl, .inl rfl⟩, (Option.some.inj h).symm, by decide⟩
    · split at h
      · rename_i hempty
        obtain ⟨rfl, rfl, rfl, rfl⟩ := hempty
        exact ⟨"", ⟨rfl, rfl, .inr rfl⟩, (Option.some.inj h).symm, by decide⟩
      · cases h
  iv_length := by
    rintro key iv p ⟨-, rfl, -⟩
    rfl
  tag_length := by
    intro key iv bytes
    simp only [developmentTools]
    split <;> rfl
  length := by
    intro key iv bytes
    simp only [developmentTools]
    split
    · rename_i hok
      rw [hok]
      decide
    · rfl

theorem sensitive_data_sound_ok :
    SensitiveDataSound developmentTools developmentIssued {} developmentKey countedIv "ok"
      (.ciphertext "000102030405060708090a0b0c0d0e0f:768e2ba289df1a9bfbdff6a709516e59:87c2") := by
  refine (sensitive_data_sound_iff developmentTools_authentic rfl ⟨rfl, rfl, .inl rfl⟩ _).mpr
    ⟨by decide, fun text htext => ?_⟩
  obtain rfl := StoredSecret.ciphertext.inj htext
  decide +kernel

/-- The empty text comes back as its own ciphertext, and so does a ciphertext that has lost its
last part. -/
theorem empty_secret_lost :
    (∃ s, encryptSensitiveData developmentTools {} countedIv "" = .ok s ∧
      decryptSensitiveData developmentTools {} s = .ok s ∧ s ≠ "") ∧
    decryptSensitiveData developmentTools {}
        "000102030405060708090a0b0c0d0e0f:768e2ba289df1a9bfbdf" =
      .ok "000102030405060708090a0b0c0d0e0f:768e2ba289df1a9bfbdf" := by
  refine ⟨⟨"000102030405060708090a0b0c0d0e0f:cbefb581cd1e2625a624a269613bca8f:", ?_⟩, ?_⟩
  · decide +kernel
  · decide +kernel

end Incudal
