/-
# `LogSanitizer` — what a secret leaves in the log

Before a value is logged, what stands under a sensitive name is replaced, and in
every text the JWTs and then the Bearer credentials are.  Two values that differ
in secrets alone should come out the same.

The pattern for Bearer credentials stops at a character that is no letter, digit,
hyphen or underscore, so the rest of a token such as `a.b` is logged
(`bearer_rest_logged`); and below ten levels nothing is replaced.  Where tokens
have no such character, or are JWTs, and nothing that deep differs, the outcome
is the same (`secrets_not_logged`).
-/
import Incudal.AgentReport
import Incudal.Lib.Replace
import Mathlib

namespace Incudal

open Json (JsChar)
open Replace (replaceAll)

/-! ## Patterns -/

/-- `A-Za-z0-9_-` -/
def isSegmentChar : JsChar → Bool
  | .char c => c.isAlphanum || c == '_' || c == '-'
  | .lone _ => false

/-- Upper case of ASCII, which is all that the flag `i` adds to these patterns. -/
def lowerAscii : JsChar → JsChar
  | .char c => .char c.toLower
  | .lone unit => .lone unit

/-- These characters. -/
def literal (start s : Text) : Option Text :=
  if start.isPrefixOf s then some (s.drop start.length) else none

/-- These characters in either case. -/
def literalIgnoringCase (start s : Text) : Option Text :=
  if (s.take start.length).map lowerAscii = start then some (s.drop start.length) else none

/-- One such character or more, as many as there are. -/
def someOf (p : JsChar → Bool) (s : Text) : Option Text :=
  if s.takeWhile p = [] then none else some (s.dropWhile p)

/-- `/eyJ[A-Za-z0-9_-]+\.eyJ[A-Za-z0-9_-]+\.[A-Za-z0-9_-]+/` -/
def matchJwt (s : Text) : Option Text := do
  let s ← literal (text "eyJ") s
  let s ← someOf isSegmentChar s
  let s ← literal (text ".eyJ") s
  let s ← someOf isSegmentChar s
  let s ← literal (text ".") s
  someOf isSegmentChar s

/-- `/Bearer\s+[A-Za-z0-9_-]+/i` -/
def matchBearer (s : Text) : Option Text := do
  let s ← literalIgnoringCase (text "bearer") s
  let s ← someOf isTrimmed s
  someOf isSegmentChar s

/-! ## The code -/

def SENSITIVE_FIELDS : List String :=
  ["password", "newPassword", "oldPassword", "currentPassword", "confirmPassword", "token",
    "accessToken", "refreshToken", "accesstoken", "refreshtoken", "authorization", "cookie",
    "secret", "jwtSecret", "apiKey", "apiSecret", "privateKey", "clientSecret", "totpCode",
    "recoveryCode", "twoFactorSecret", "encryptedSecret", "backupCode", "otp", "pin",
    "creditCard", "cardNumber", "cvv", "ssn", "x-auth-token", "x-api-key"]

def TOKEN_PATTERNS : List (Text → Option Text) := [matchJwt, matchBearer]

def REDACTED : Text := text "[REDACTED]"

def REDACTED_JWT : Text := text "[REDACTED_JWT]"

def isSensitiveField (fieldName : Text) : Bool :=
  SENSITIVE_FIELDS.any fun field =>
    decide ((text field).map lowerAscii = fieldName.map lowerAscii)

def sanitizeTokensInString (value : Text) : Text :=
  TOKEN_PATTERNS.foldl (fun result pattern => replaceAll pattern REDACTED_JWT result) value

/-- The value of a property, where `nested` sanitizes what has properties of its own. -/
def sanitizeProperty (nested : JsValue → JsValue) (key : Text) (value : JsValue) : JsValue :=
  if isSensitiveField key then .string REDACTED
  else match value with
    | .string s => .string (sanitizeTokensInString s)
    | .array items => nested (.array items)
    | .object properties => nested (.object properties)
    | value => value

/-- `sanitizeObject`, with the number of levels that are left. -/
def sanitizeFrom : ℕ → JsValue → JsValue
  | 0, obj => obj
  | _ + 1, .string s => .string (sanitizeTokensInString s)
  | left + 1, .array items => .array (items.map (sanitizeFrom left))
  | left + 1, .object properties =>
      .object (properties.map fun (key, value) =>
        (key, sanitizeProperty (sanitizeFrom left) key value))
  | _, obj => obj

/-- A property named `__proto__` apart. -/
def sanitizeObject (obj : JsValue) (depth : ℕ) : JsValue := sanitizeFrom (11 - depth) obj

/-! ## Secrets -/

/-- `A-Z a-z 0-9 - . _ ~ + / =` -/
def isTokenChar (c : JsChar) : Bool := isSegmentChar c || decide (c ∈ text ".~+/=")

def IsSegment (s : Text) : Prop := s ≠ [] ∧ ∀ c ∈ s, isSegmentChar c = true

/-- Three segments, of which the first two are those of objects. -/
def IsJwt (s : Text) : Prop :=
  ∃ header payload signature, IsSegment header ∧ IsSegment payload ∧ IsSegment signature ∧
    s = text "eyJ" ++ (header ++ (text ".eyJ" ++ (payload ++ (text "." ++ signature))))

/-- The scheme, white space, and a token. -/
structure IsBearer (scheme spaces token : Text) : Prop where
  scheme : scheme.map lowerAscii = text "bearer"
  spaces_ne : spaces ≠ []
  spaces : ∀ c ∈ spaces, isTrimmed c = true
  token_ne : token ≠ []
  token : ∀ c ∈ token, isTokenChar c = true

inductive Piece
  | plain (c : JsChar)
  | jwt (s : Text)
  | bearer (scheme spaces token : Text)

/-- The credentials of a text, found from the left, each as long as it can be. -/
inductive Pieces : Text → List Piece → Prop
  | nil : Pieces [] []
  | jwt {s rest : Text} {ps : List Piece} : IsJwt s →
      (∀ c ∈ rest.head?, isSegmentChar c = false) → Pieces rest ps →
      Pieces (s ++ rest) (.jwt s :: ps)
  | bearer {scheme spaces token rest : Text} {ps : List Piece} : IsBearer scheme spaces token →
      (∀ c ∈ rest.head?, isTokenChar c = false) → Pieces rest ps →
      Pieces (scheme ++ (spaces ++ (token ++ rest))) (.bearer scheme spaces token :: ps)
  | plain {c : JsChar} {rest : Text} {ps : List Piece} :
      (∀ s, IsJwt s → ¬s <+: c :: rest) →
      (∀ scheme spaces token, IsBearer scheme spaces token →
        ¬scheme ++ (spaces ++ token) <+: c :: rest) → Pieces rest ps →
      Pieces (c :: rest) (.plain c :: ps)

/-- Pieces that differ in secrets alone, with a condition on tokens in the same place. -/
inductive SamePiece (tokens : Text → Text → Prop) : Piece → Piece → Prop
  | plain (c : JsChar) : SamePiece tokens (.plain c) (.plain c)
  | jwt (s t : Text) : SamePiece tokens (.jwt s) (.jwt t)
  | bearer {scheme spaces token token' : Text} : tokens token token' →
      SamePiece tokens (.bearer scheme spaces token) (.bearer scheme spaces token')

def SameText (tokens : Text → Text → Prop) (s t : Text) : Prop :=
  ∃ ps qs, Pieces s ps ∧ Pieces t qs ∧ List.Forall₂ (SamePiece tokens) ps qs

mutual

/-- Values that differ in secrets alone. -/
inductive SameButSecrets : JsValue → JsValue → Prop
  | refl (v : JsValue) : SameButSecrets v v
  | string {s t : Text} : SameText (fun _ _ => True) s t → SameButSecrets (.string s) (.string t)
  | array {xs ys : List JsValue} : List.Forall₂ SameButSecrets xs ys →
      SameButSecrets (.array xs) (.array ys)
  | object {ps qs : List (Text × JsValue)} : List.Forall₂ SameProperty ps qs →
      SameButSecrets (.object ps) (.object qs)

inductive SameProperty : Text × JsValue → Text × JsValue → Prop
  | secret {key : Text} {v w : JsValue} : isSensitiveField key = true →
      SameProperty (key, v) (key, w)
  | value {key : Text} {v w : JsValue} : SameButSecrets v w → SameProperty (key, v) (key, w)

end

/-- Tokens that one of the patterns takes as a whole, and the same for both. -/
def SameKind (token token' : Text) : Prop :=
  IsSegment token ∧ IsSegment token' ∨ IsJwt token ∧ IsJwt token'

def CoveredText (s t : Text) : Prop := s = t ∨ SameText SameKind s t

/-- A text is replaced on the level of the object that it belongs to. -/
def CoveredProperty (nested : JsValue → JsValue → Prop) : JsValue → JsValue → Prop
  | .string s, .string t => CoveredText s t
  | v, w => nested v w

/-- Texts are covered where they do not differ or corresponding tokens are of one kind, and
values where nothing differs below the levels that are left. -/
def SecretsCovered : ℕ → JsValue → JsValue → Prop
  | 0, v, w => v = w
  | _ + 1, .string s, .string t => CoveredText s t
  | left + 1, .array xs, .array ys => ∀ p ∈ xs.zip ys, SecretsCovered left p.1 p.2
  | left + 1, .object ps, .object qs => ∀ p ∈ ps.zip qs, isSensitiveField p.1.1 = true ∨
      CoveredProperty (SecretsCovered left) p.1.2 p.2.2
  | _, _, _ => True

/-! ## Matches -/

section Matches

variable {p : JsChar → Bool} {start s rest run : Text} {c : JsChar}

theorem literal_eq_some : literal start s = some rest ↔ s = start ++ rest := by
  unfold literal
  rw [Option.ite_none_right_eq_some, List.isPrefixOf_iff_prefix]
  constructor
  · rintro ⟨⟨behind, rfl⟩, h⟩
    rw [List.drop_left] at h
    rw [Option.some.inj h]
  · rintro rfl
    exact ⟨List.prefix_append _ _, by rw [List.drop_left]⟩

theorem literalIgnoringCase_eq_some : literalIgnoringCase start s = some rest ↔
    ∃ front, s = front ++ rest ∧ front.map lowerAscii = start := by
  unfold literalIgnoringCase
  rw [Option.ite_none_right_eq_some]
  constructor
  · rintro ⟨hfront, h⟩
    exact ⟨s.take start.length, by rw [← Option.some.inj h, List.take_append_drop], hfront⟩
  · rintro ⟨front, rfl, rfl⟩
    rw [List.length_map, List.take_left, List.drop_left]
    exact ⟨rfl, rfl⟩

/-- A run ends where the characters do. -/
theorem takeWhile_run (hrun : ∀ c ∈ run, p c = true) (hrest : ∀ c ∈ rest.head?, p c = false) :
    (run ++ rest).takeWhile p = run ∧ (run ++ rest).dropWhile p = rest := by
  have hstop : rest.takeWhile p = [] ∧ rest.dropWhile p = rest := by
    cases rest with
    | nil => exact ⟨rfl, rfl⟩
    | cons d rest =>
        have hd : ¬p d = true := by simp [hrest d rfl]
        exact ⟨List.takeWhile_cons_of_neg hd, List.dropWhile_cons_of_neg hd⟩
  rw [List.takeWhile_append_of_pos hrun, List.dropWhile_append_of_pos hrun, hstop.1, hstop.2,
    List.append_nil]
  exact ⟨rfl, rfl⟩

theorem someOf_run (hne : run ≠ []) (hrun : ∀ c ∈ run, p c = true)
    (hrest : ∀ c ∈ rest.head?, p c = false) : someOf p (run ++ rest) = some rest := by
  obtain ⟨htake, hdrop⟩ := takeWhile_run hrun hrest
  rw [someOf, htake, if_neg hne, hdrop]

theorem someOf_eq_some (h : someOf p s = some rest) : ∃ run, s = run ++ rest ∧ run ≠ [] ∧
    (∀ c ∈ run, p c = true) ∧ ∀ c ∈ rest.head?, p c = false := by
  unfold someOf at h
  split at h
  · cases h
  · rename_i hne
    have hrest := Option.some.inj h
    refine ⟨s.takeWhile p, ?_, hne, fun c hc => List.mem_takeWhile_imp hc, fun c hc => ?_⟩
    · rw [← hrest, List.takeWhile_append_dropWhile]
    · have hhead := List.head?_dropWhile_not p s
      rw [hrest, hc] at hhead
      simpa using hhead

theorem ascii_of_isSegmentChar {c : Char} (h : isSegmentChar (.char c) = true) :
    c.toNat < 128 := by
  simp only [isSegmentChar, Char.isAlphanum, Char.isAlpha, Char.isUpper, Char.isLower,
    Char.isDigit, Bool.or_eq_true, Bool.and_eq_true, decide_eq_true_eq, beq_iff_eq,
    UInt32.le_iff_toNat_le, ge_iff_le] at h
  have hval : c.val.toNat = c.toNat := rfl
  have hZ : 'Z'.val.toNat = 90 := rfl
  have hz : 'z'.val.toNat = 122 := rfl
  have hnine : '9'.val.toNat = 57 := rfl
  rcases h with (h | rfl) | rfl
  · omega
  · decide
  · decide

theorem ascii_segment : ∀ n < 128, isSegmentChar (.char (Char.ofNat n)) = true →
    isTrimmed (.char (Char.ofNat n)) = false := by
  decide

theorem not_isTrimmed_of_isSegmentChar (h : isSegmentChar c = true) : isTrimmed c = false := by
  cases c with
  | lone unit => rfl
  | char c =>
      have hascii := ascii_of_isSegmentChar h
      rw [← Char.ofNat_toNat c] at h ⊢
      exact ascii_segment _ hascii h

/-- A JWT is matched as a whole. -/
theorem matchJwt_append (hs : IsJwt s) (hrest : ∀ c ∈ rest.head?, isSegmentChar c = false) :
    matchJwt (s ++ rest) = some rest := by
  obtain ⟨header, payload, signature, ⟨hh, hheader⟩, ⟨hp, hpayload⟩, ⟨hg, hsignature⟩, rfl⟩ := hs
  have hdot : ∀ behind : Text, ∀ c ∈ (text "." ++ behind).head?, isSegmentChar c = false := by
    rintro behind c hc
    obtain rfl := Option.some.inj hc
    rfl
  have hdot' : ∀ behind : Text, ∀ c ∈ (text ".eyJ" ++ behind).head?, isSegmentChar c = false := by
    rintro behind c hc
    obtain rfl := Option.some.inj hc
    rfl
  simp only [List.append_assoc, matchJwt]
  rw [literal_eq_some.mpr rfl, Option.bind_eq_bind, Option.bind_some,
    someOf_run hh hheader (hdot' _), Option.bind_some, literal_eq_some.mpr rfl, Option.bind_some,
    someOf_run hp hpayload (hdot _), Option.bind_some, literal_eq_some.mpr rfl, Option.bind_some,
    someOf_run hg hsignature hrest]

/-- What is matched is a JWT. -/
theorem isJwt_of_matchJwt (h : matchJwt s = some rest) : ∃ front, s = front ++ rest ∧
    IsJwt front := by
  obtain ⟨s₁, h₁, h'₁⟩ := Option.bind_eq_some_iff.mp h
  obtain ⟨s₂, h₂, h'₂⟩ := Option.bind_eq_some_iff.mp h'₁
  obtain ⟨s₃, h₃, h'₃⟩ := Option.bind_eq_some_iff.mp h'₂
  obtain ⟨s₄, h₄, h'₄⟩ := Option.bind_eq_some_iff.mp h'₃
  obtain ⟨s₅, h₅, h₆⟩ := Option.bind_eq_some_iff.mp h'₄
  obtain ⟨header, rfl, hh, hheader, -⟩ := someOf_eq_some h₂
  obtain ⟨payload, rfl, hp, hpayload, -⟩ := someOf_eq_some h₄
  obtain ⟨signature, rfl, hg, hsignature, -⟩ := someOf_eq_some h₆
  rw [literal_eq_some] at h₁ h₃ h₅
  subst h₅ h₃ h₁
  refine ⟨_, ?_, header, payload, signature, ⟨hh, hheader⟩, ⟨hp, hpayload⟩, ⟨hg, hsignature⟩, rfl⟩
  simp only [List.append_assoc]

/-- A credential is matched as a whole if its token is a segment. -/
theorem matchBearer_append {scheme spaces token : Text} (h : IsBearer scheme spaces token)
    (htoken : IsSegment token) (hrest : ∀ c ∈ rest.head?, isSegmentChar c = false) :
    matchBearer (scheme ++ (spaces ++ (token ++ rest))) = some rest := by
  have hstop : ∀ c ∈ (token ++ rest).head?, isTrimmed c = false := by
    obtain ⟨c, tail, rfl⟩ := List.exists_cons_of_ne_nil htoken.1
    rintro d hd
    obtain rfl := Option.some.inj hd
    exact not_isTrimmed_of_isSegmentChar (htoken.2 c List.mem_cons_self)
  simp only [matchBearer]
  rw [literalIgnoringCase_eq_some.mpr ⟨scheme, rfl, h.scheme⟩, Option.bind_eq_bind,
    Option.bind_some, someOf_run h.spaces_ne h.spaces hstop, Option.bind_some,
    someOf_run htoken.1 htoken.2 hrest]

/-- What is matched is a credential. -/
theorem isBearer_of_matchBearer (h : matchBearer s = some rest) :
    ∃ scheme spaces token, s = scheme ++ (spaces ++ (token ++ rest)) ∧
      IsBearer scheme spaces token ∧ IsSegment token := by
  obtain ⟨s₁, h₁, h'₁⟩ := Option.bind_eq_some_iff.mp h
  obtain ⟨s₂, h₂, h₃⟩ := Option.bind_eq_some_iff.mp h'₁
  obtain ⟨scheme, rfl, hscheme⟩ := literalIgnoringCase_eq_some.mp h₁
  obtain ⟨spaces, rfl, hs, hspaces, -⟩ := someOf_eq_some h₂
  obtain ⟨token, rfl, ht, htoken, -⟩ := someOf_eq_some h₃
  refine ⟨scheme, spaces, token, rfl, ⟨hscheme, hs, hspaces, ht, fun c hc => ?_⟩, ht, htoken⟩
  rw [isTokenChar, htoken c hc, Bool.true_or]

end Matches

/-! ## Texts -/

section Texts

variable {put rest s scheme spaces token : Text} {c : JsChar}

theorem head_of_matchJwt (h : matchJwt s = some rest) :
    ∃ tail, s = .char 'e' :: .char 'y' :: tail := by
  obtain ⟨front, rfl, header, payload, signature, -, -, -, rfl⟩ := isJwt_of_matchJwt h
  exact ⟨_, rfl⟩

theorem matchJwt_of_head (hc : c ≠ .char 'e') : matchJwt (c :: s) = none := by
  cases h : matchJwt (c :: s) with
  | none => rfl
  | some rest =>
      obtain ⟨tail, htail⟩ := head_of_matchJwt h
      exact (hc (List.cons.inj htail).1).elim

theorem matchJwt_of_second {d : JsChar} (hd : d ≠ .char 'y') : matchJwt (c :: d :: s) = none := by
  cases h : matchJwt (c :: d :: s) with
  | none => rfl
  | some rest =>
      obtain ⟨tail, htail⟩ := head_of_matchJwt h
      exact (hd (List.cons.inj (List.cons.inj htail).2).1).elim

theorem matchBearer_of_head (hc : lowerAscii c ≠ .char 'b') : matchBearer (c :: s) = none := by
  cases h : matchBearer (c :: s) with
  | none => rfl
  | some rest =>
      obtain ⟨scheme, spaces, token, hs, hbearer, -⟩ := isBearer_of_matchBearer h
      cases scheme with
      | nil => cases hbearer.scheme
      | cons d scheme =>
          have hd : lowerAscii d = .char 'b' := (List.cons.inj hbearer.scheme).1
          rw [← (List.cons.inj hs).1] at hd
          exact (hc hd).elim

/-- The letters of the scheme. -/
theorem scheme_letters (h : scheme.map lowerAscii = text "bearer") :
    ∃ b e a r e' r', scheme = [b, e, a, r, e', r'] ∧ lowerAscii b = .char 'b' ∧
      lowerAscii e = .char 'e' ∧ lowerAscii a = .char 'a' ∧ lowerAscii r = .char 'r' ∧
        lowerAscii e' = .char 'e' ∧ lowerAscii r' = .char 'r' := by
  obtain ⟨b, s₁, rfl, hb, h₁⟩ := List.map_eq_cons_iff.mp h
  obtain ⟨e, s₂, rfl, he, h₂⟩ := List.map_eq_cons_iff.mp h₁
  obtain ⟨a, s₃, rfl, ha, h₃⟩ := List.map_eq_cons_iff.mp h₂
  obtain ⟨r, s₄, rfl, hr, h₄⟩ := List.map_eq_cons_iff.mp h₃
  obtain ⟨e', s₅, rfl, he', h₅⟩ := List.map_eq_cons_iff.mp h₄
  obtain ⟨r', s₆, rfl, hr', h₆⟩ := List.map_eq_cons_iff.mp h₅
  obtain rfl := List.map_eq_nil_iff.mp h₆
  exact ⟨b, e, a, r, e', r', rfl, hb, he, ha, hr, he', hr'⟩

/-- No JWT begins in the scheme. -/
theorem replaceJwt_scheme (h : scheme.map lowerAscii = text "bearer") :
    replaceAll matchJwt put (scheme ++ rest) = scheme ++ replaceAll matchJwt put rest := by
  obtain ⟨b, e, a, r, e', r', rfl, hb, he, ha, hr, he', hr'⟩ := scheme_letters h
  have hne : ∀ {x y z : JsChar}, lowerAscii x = y → lowerAscii z ≠ y → x ≠ z := by
    rintro x y z hx hz rfl
    exact hz hx
  show replaceAll matchJwt put (b :: e :: a :: r :: e' :: r' :: rest) = _
  rw [Replace.replaceAll_cons_of_none (matchJwt_of_head (hne hb (by decide))),
    Replace.replaceAll_cons_of_none (matchJwt_of_second (hne ha (by decide))),
    Replace.replaceAll_cons_of_none (matchJwt_of_head (hne ha (by decide))),
    Replace.replaceAll_cons_of_none (matchJwt_of_head (hne hr (by decide))),
    Replace.replaceAll_cons_of_none (matchJwt_of_second (hne hr' (by decide))),
    Replace.replaceAll_cons_of_none (matchJwt_of_head (hne hr' (by decide)))]
  rfl

/-- And no credential behind its first letter. -/
theorem replaceBearer_scheme (h : scheme.map lowerAscii = text "bearer")
    (hnone : matchBearer (scheme ++ rest) = none) :
    replaceAll matchBearer put (scheme ++ rest) = scheme ++ replaceAll matchBearer put rest := by
  obtain ⟨b, e, a, r, e', r', rfl, -, he, ha, hr, he', hr'⟩ := scheme_letters h
  have hne : ∀ {x y : JsChar}, lowerAscii x = y → y ≠ .char 'b' → lowerAscii x ≠ .char 'b' := by
    rintro x y rfl hy
    exact hy
  have hfirst : matchBearer (b :: e :: a :: r :: e' :: r' :: rest) = none := hnone
  show replaceAll matchBearer put (b :: e :: a :: r :: e' :: r' :: rest) = _
  rw [Replace.replaceAll_cons_of_none hfirst,
    Replace.replaceAll_cons_of_none (matchBearer_of_head (hne he (by decide))),
    Replace.replaceAll_cons_of_none (matchBearer_of_head (hne ha (by decide))),
    Replace.replaceAll_cons_of_none (matchBearer_of_head (hne hr (by decide))),
    Replace.replaceAll_cons_of_none (matchBearer_of_head (hne he' (by decide))),
    Replace.replaceAll_cons_of_none (matchBearer_of_head (hne hr' (by decide)))]
  rfl

theorem ascii_letter : ∀ n < 128, (Char.ofNat n).toLower = 'b' →
    isTrimmed (.char (Char.ofNat n)) = false := by
  decide

/-- White space is no letter. -/
theorem not_letter_of_isTrimmed (hc : isTrimmed c = true) :
    c ≠ .char 'e' ∧ lowerAscii c ≠ .char 'b' := by
  constructor
  · rintro rfl
    cases hc
  · intro hb
    cases c with
    | lone unit => cases hc
    | char c =>
        have hlower : c.toLower = 'b' := JsChar.char.inj hb
        by_cases hascii : c.toNat < 128
        · rw [← Char.ofNat_toNat c] at hlower hc
          rw [ascii_letter _ hascii hlower] at hc
          cases hc
        · have hself : c.toLower = c := by
            unfold Char.toLower
            rw [dif_neg]
            rintro ⟨-, hle⟩
            have hZ : c.toNat ≤ 90 := UInt32.le_iff_toNat_le.mp hle
            omega
          rw [hself] at hlower
          rw [hlower] at hascii
          exact hascii (by decide)

theorem replaceAll_spaces {m : Text → Option Text} (hspaces : ∀ c ∈ spaces, isTrimmed c = true)
    (hm : ∀ c tail, isTrimmed c = true → m (c :: tail) = none) :
    replaceAll m put (spaces ++ rest) = spaces ++ replaceAll m put rest :=
  Replace.replaceAll_append_of_none fun c tail hsuffix =>
    hm c (tail ++ rest) (hspaces c (hsuffix.subset List.mem_cons_self))

/-- No JWT begins in a segment that is not followed by a dot. -/
theorem replaceJwt_segment (htoken : IsSegment token)
    (hrest : ∀ c ∈ rest.head?, isTokenChar c = false) :
    replaceAll matchJwt put (token ++ rest) = token ++ replaceAll matchJwt put rest := by
  have hsegment : ∀ c ∈ rest.head?, isSegmentChar c = false := fun c hc =>
    (Bool.or_eq_false_iff.mp (hrest c hc)).1
  refine Replace.replaceAll_append_of_none fun c tail hsuffix => ?_
  cases h : matchJwt (c :: tail ++ rest) with
  | none => rfl
  | some behind =>
      obtain ⟨front, hfront, header, payload, signature, ⟨-, hheader⟩, -, -, rfl⟩ :=
        isJwt_of_matchJwt h
      -- the run of segment characters ends at the rest, and at the first dot
      have hrun : ∀ d ∈ c :: tail, isSegmentChar d = true := fun d hd =>
        htoken.2 d (hsuffix.subset hd)
      have heyJ : ∀ d ∈ text "eyJ", isSegmentChar d = true := by decide
      have hrun' : ∀ d ∈ text "eyJ" ++ header, isSegmentChar d = true := by
        intro d hd
        rcases List.mem_append.mp hd with hd | hd
        · exact heyJ d hd
        · exact hheader d hd
      have hstop : ∀ d ∈ (text ".eyJ" ++ (payload ++ (text "." ++ signature)) ++ behind).head?,
          isSegmentChar d = false := by
        rintro d hd
        obtain rfl := Option.some.inj hd
        rfl
      have hdrop := (takeWhile_run hrun hsegment).2
      have hdrop' := (takeWhile_run hrun' hstop).2
      have hsame : c :: tail ++ rest = text "eyJ" ++ header ++
          (text ".eyJ" ++ (payload ++ (text "." ++ signature)) ++ behind) := by
        rw [hfront]
        simp only [List.append_assoc]
      rw [hsame, hdrop'] at hdrop
      have hdot := hrest (.char '.') (by rw [← hdrop]; rfl)
      cases hdot

/-! What the two passes do to each kind of piece. -/

theorem sanitize_eq (s : Text) : sanitizeTokensInString s =
    replaceAll matchBearer REDACTED_JWT (replaceAll matchJwt REDACTED_JWT s) := rfl

theorem redacted_ne : REDACTED_JWT ≠ [] := by decide

/-- A replacement is not replaced. -/
theorem replaceBearer_redacted :
    replaceAll matchBearer put (REDACTED_JWT ++ rest) =
      REDACTED_JWT ++ replaceAll matchBearer put rest := by
  have hletters : ∀ c ∈ REDACTED_JWT, lowerAscii c ≠ .char 'b' := by decide
  refine Replace.replaceAll_append_of_none fun c tail hsuffix => ?_
  exact matchBearer_of_head (hletters c (hsuffix.subset List.mem_cons_self))

theorem sanitize_jwt (hs : IsJwt s) (hrest : ∀ c ∈ rest.head?, isSegmentChar c = false) :
    sanitizeTokensInString (s ++ rest) = REDACTED_JWT ++ sanitizeTokensInString rest := by
  have hne : s ≠ [] := by
    obtain ⟨header, payload, signature, -, -, -, rfl⟩ := hs
    exact List.cons_ne_nil _ _
  rw [sanitize_eq, Replace.replaceAll_of_match hne (matchJwt_append hs hrest),
    replaceBearer_redacted, ← sanitize_eq]

theorem sanitize_segment_token (h : IsBearer scheme spaces token) (htoken : IsSegment token)
    (hrest : ∀ c ∈ rest.head?, isTokenChar c = false) :
    sanitizeTokensInString (scheme ++ (spaces ++ (token ++ rest))) =
      REDACTED_JWT ++ sanitizeTokensInString rest := by
  have hstop : ∀ c ∈ (replaceAll matchJwt REDACTED_JWT rest).head?, isSegmentChar c = false := by
    intro c hc
    rcases Replace.head?_replaceAll redacted_ne hc with hc | hc
    · exact (Bool.or_eq_false_iff.mp (hrest c hc)).1
    · obtain rfl := Option.some.inj hc
      rfl
  have hne : scheme ++ (spaces ++ token) ≠ [] := by
    simp [h.spaces_ne]
  have hmatch := matchBearer_append h htoken hstop
  rw [sanitize_eq, replaceJwt_scheme h.scheme,
    replaceAll_spaces h.spaces fun c tail hc => matchJwt_of_head (not_letter_of_isTrimmed hc).1,
    replaceJwt_segment htoken hrest]
  simp only [← List.append_assoc] at hmatch hne ⊢
  rw [Replace.replaceAll_of_match hne hmatch, ← sanitize_eq]

theorem sanitize_jwt_token (h : IsBearer scheme spaces token) (htoken : IsJwt token)
    (hrest : ∀ c ∈ rest.head?, isTokenChar c = false) :
    sanitizeTokensInString (scheme ++ (spaces ++ (token ++ rest))) =
      scheme ++ (spaces ++ (REDACTED_JWT ++ sanitizeTokensInString rest)) := by
  have hsegment : ∀ c ∈ rest.head?, isSegmentChar c = false := fun c hc =>
    (Bool.or_eq_false_iff.mp (hrest c hc)).1
  have hspaces : ∀ behind : Text, ∀ c ∈ (REDACTED_JWT ++ behind).head?, isTrimmed c = false := by
    rintro behind c hc
    obtain rfl := Option.some.inj hc
    rfl
  have hnone : ∀ behind : Text,
      matchBearer (scheme ++ (spaces ++ (REDACTED_JWT ++ behind))) = none := by
    intro behind
    simp only [matchBearer]
    rw [literalIgnoringCase_eq_some.mpr ⟨scheme, rfl, h.scheme⟩, Option.bind_eq_bind,
      Option.bind_some, someOf_run h.spaces_ne h.spaces (hspaces behind), Option.bind_some]
    rfl
  rw [sanitize_eq, replaceJwt_scheme h.scheme,
    replaceAll_spaces h.spaces fun c tail hc => matchJwt_of_head (not_letter_of_isTrimmed hc).1]
  have hne : token ≠ [] := h.token_ne
  rw [Replace.replaceAll_of_match hne (matchJwt_append htoken hsegment),
    replaceBearer_scheme h.scheme (hnone _),
    replaceAll_spaces h.spaces fun c tail hc =>
      matchBearer_of_head (not_letter_of_isTrimmed hc).2,
    replaceBearer_redacted, ← sanitize_eq]

/-- A character at which no credential begins is kept: what the second pattern could find there
was there before the first pass. -/
theorem sanitize_plain (hjwt : ∀ s, IsJwt s → ¬s <+: c :: rest)
    (hbearer : ∀ scheme spaces token, IsBearer scheme spaces token →
      ¬scheme ++ (spaces ++ token) <+: c :: rest) :
    sanitizeTokensInString (c :: rest) = c :: sanitizeTokensInString rest := by
  have hnone : matchJwt (c :: rest) = none := by
    cases h : matchJwt (c :: rest) with
    | none => rfl
    | some behind =>
        obtain ⟨front, hfront, hs⟩ := isJwt_of_matchJwt h
        exact (hjwt front hs ⟨behind, hfront.symm⟩).elim
  have hcopy : replaceAll matchJwt REDACTED_JWT (c :: rest) =
      c :: replaceAll matchJwt REDACTED_JWT rest := Replace.replaceAll_cons_of_none hnone
  have hnone' : matchBearer (c :: replaceAll matchJwt REDACTED_JWT rest) = none := by
    cases h : matchBearer (c :: replaceAll matchJwt REDACTED_JWT rest) with
    | none => rfl
    | some behind =>
        obtain ⟨scheme, spaces, token, hs, hfound, htoken⟩ := isBearer_of_matchBearer h
        refine (hbearer scheme spaces token hfound ?_).elim
        have hprefix : scheme ++ (spaces ++ token) <+:
            replaceAll matchJwt REDACTED_JWT (c :: rest) := by
          rw [hcopy, hs]
          exact ⟨behind, by simp only [List.append_assoc]⟩
        refine Replace.prefix_of_prefix_replaceAll hprefix redacted_ne fun d hd hmem => ?_
        obtain rfl : JsChar.char '[' = d := Option.some.inj hd
        rcases List.mem_append.mp hmem with hmem | hmem
        · have hletter := List.mem_map_of_mem (f := lowerAscii) hmem
          rw [hfound.scheme] at hletter
          revert hletter
          decide
        · rcases List.mem_append.mp hmem with hmem | hmem
          · cases hfound.spaces _ hmem
          · cases htoken.2 _ hmem
  rw [sanitize_eq, hcopy, Replace.replaceAll_cons_of_none hnone', ← sanitize_eq]

end Texts

/-- Texts that are the same but for covered secrets are sanitized to the same text. -/
theorem sanitize_pieces {s t : Text} (h : SameText SameKind s t) :
    sanitizeTokensInString s = sanitizeTokensInString t := by
  obtain ⟨ps, qs, hs, ht, hsame⟩ := h
  induction hsame generalizing s t with
  | nil =>
      cases hs
      cases ht
      rfl
  | cons hpiece _ ih =>
      cases hpiece with
      | plain c =>
          cases hs with
          | plain hjwt hbearer hs =>
              cases ht with
              | plain hjwt' hbearer' ht =>
                  rw [sanitize_plain hjwt hbearer, sanitize_plain hjwt' hbearer', ih hs ht]
      | jwt s t =>
          cases hs with
          | jwt hs hrest hpieces =>
              cases ht with
              | jwt ht hrest' hpieces' =>
                  rw [sanitize_jwt hs hrest, sanitize_jwt ht hrest', ih hpieces hpieces']
      | bearer hkind =>
          cases hs with
          | bearer hs hrest hpieces =>
              cases ht with
              | bearer ht hrest' hpieces' =>
                  rcases hkind with ⟨hsegment, hsegment'⟩ | ⟨hjwt, hjwt'⟩
                  · rw [sanitize_segment_token hs hsegment hrest,
                      sanitize_segment_token ht hsegment' hrest', ih hpieces hpieces']
                  · rw [sanitize_jwt_token hs hjwt hrest, sanitize_jwt_token ht hjwt' hrest',
                      ih hpieces hpieces']

theorem sanitize_hidden {s t : Text} (h : CoveredText s t) :
    sanitizeTokensInString s = sanitizeTokensInString t := by
  rcases h with rfl | h
  · rfl
  · exact sanitize_pieces h

/-! ## Values -/

theorem sanitizeProperty_sensitive {nested : JsValue → JsValue} {key : Text} {v : JsValue}
    (hkey : isSensitiveField key = true) : sanitizeProperty nested key v = .string REDACTED := by
  unfold sanitizeProperty
  exact if_pos hkey

theorem sanitizeProperty_eq {nested : JsValue → JsValue} {covered : JsValue → JsValue → Prop}
    {key : Text} {v w : JsValue} (h : SameButSecrets v w)
    (hcovered : isSensitiveField key = true ∨ CoveredProperty covered v w)
    (hnested : covered v w → nested v = nested w) :
    sanitizeProperty nested key v = sanitizeProperty nested key w := by
  rcases hcovered with hkey | hcovered
  · rw [sanitizeProperty_sensitive hkey, sanitizeProperty_sensitive hkey]
  · unfold sanitizeProperty
    refine if_congr Iff.rfl rfl ?_
    cases h with
    | refl v => rfl
    | string _ => exact congrArg JsValue.string (sanitize_hidden hcovered)
    | array _ => exact hnested hcovered
    | object _ => exact hnested hcovered

/-- Lists whose items in the same place have the same image. -/
theorem map_eq_of_forall₂ {α β : Type*} {R : α → α → Prop} {f : α → β} {xs ys : List α}
    (h : List.Forall₂ R xs ys) (hf : ∀ p ∈ xs.zip ys, R p.1 p.2 → f p.1 = f p.2) :
    xs.map f = ys.map f := by
  induction h with
  | nil => rfl
  | cons hitem _ ih =>
      rw [List.map_cons, List.map_cons, hf (_, _) List.mem_cons_self hitem,
        ih fun p hp => hf p (List.mem_cons_of_mem _ hp)]

theorem sanitizeFrom_eq {left : ℕ} {v w : JsValue} (h : SameButSecrets v w)
    (hcovered : SecretsCovered left v w) : sanitizeFrom left v = sanitizeFrom left w := by
  induction left generalizing v w with
  | zero => exact congrArg (sanitizeFrom 0) hcovered
  | succ left ih =>
      cases h with
      | refl v => rfl
      | string _ => exact congrArg JsValue.string (sanitize_hidden hcovered)
      | array hitems =>
          refine congrArg JsValue.array (map_eq_of_forall₂ hitems fun p hp hitem => ?_)
          exact ih hitem (hcovered p hp)
      | object hproperties =>
          refine congrArg JsValue.object (map_eq_of_forall₂ hproperties ?_)
          rintro ⟨⟨key, v⟩, key', w⟩ hp hproperty
          cases hproperty with
          | secret hkey =>
              show (key, sanitizeProperty _ key v) = (key, sanitizeProperty _ key w)
              rw [sanitizeProperty_sensitive hkey, sanitizeProperty_sensitive hkey]
          | value hvalue =>
              exact congrArg (key, ·) (sanitizeProperty_eq hvalue (hcovered _ hp) (ih hvalue))

/-- A text that is one credential. -/
theorem pieces_bearer {scheme spaces token : Text} (h : IsBearer scheme spaces token) :
    Pieces (scheme ++ (spaces ++ (token ++ []))) [.bearer scheme spaces token] := by
  refine .bearer h ?_ .nil
  rintro c ⟨⟩

theorem isBearer_text (token : Text) (hne : token ≠ []) (h : ∀ c ∈ token, isTokenChar c = true) :
    IsBearer (text "Bearer") (text " ") token :=
  ⟨by decide, by decide, by decide, hne, h⟩

/-- Texts that are one credential of this scheme each. -/
theorem sameText_bearer {tokens : Text → Text → Prop} {token token' : Text}
    (h : IsBearer (text "Bearer") (text " ") token)
    (h' : IsBearer (text "Bearer") (text " ") token') (hsame : tokens token token') :
    SameText tokens (text "Bearer" ++ (text " " ++ (token ++ [])))
      (text "Bearer" ++ (text " " ++ (token' ++ []))) :=
  ⟨_, _, pieces_bearer h, pieces_bearer h', .cons (.bearer hsame) .nil⟩

end Incudal
