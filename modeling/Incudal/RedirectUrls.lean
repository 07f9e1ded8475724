/-
# `RedirectUrls` — where a redirect leads

The target of a redirect comes from the request, so it must be a path: it begins
with one slash and not with two, and has no scheme that runs a script and no line
break.  A browser reads a backslash as a slash, though, and `/\host` as the
address of another host.

The accepted targets that lead away are those that begin with a slash and a
backslash, and no others: neither blanks around a target, nor tabs, nor dots in
its path let it leave (`redirect_within_origin_iff`).
-/
import Incudal.AgentReport
import Incudal.Lib.UrlReference
import Mathlib

namespace Incudal

open Json (JsChar)
open UrlReference (Url isSlash isTabOrNewline isC0OrSpace resolve clean)

/-! ## The code -/

/-- `includes`, and `startsWith` below, of a text of ASCII. -/
def hasPart (s : Text) (part : String) : Bool := decide (text part <:+: s)

def startsWithText (s : Text) (start : String) : Bool := (text start).isPrefixOf s

variable (toLowerCase : Text → Text)

/-- A value that is no string is none. -/
def isValidRedirectUrl (url : Option Text) : Bool :=
  match url with
  | none => false
  | some url =>
      let trimmed := url.trimmed
      if trimmed.length = 0 then false
      else if !startsWithText trimmed "/" then false
      else if startsWithText trimmed "//" then false
      else
        let lowerUrl := toLowerCase trimmed
        if hasPart lowerUrl "javascript:" || hasPart lowerUrl "data:" ||
            hasPart lowerUrl "vbscript:" then false
        else if trimmed.any (fun c => decide (c ∈ text "\r\n\t")) then false
        else if hasPart trimmed "%0d" || hasPart trimmed "%0D" || hasPart trimmed "%0a" ||
            hasPart trimmed "%0A" then false
        else true

def getSafeRedirectUrl (url : Option Text) (defaultUrl : Text) : Text :=
  if isValidRedirectUrl toLowerCase url then (url.getD []).trimmed else defaultUrl

/-! ## What is promised -/

/-- A half of a surrogate pair is read as the replacement character. -/
def scalarOf : JsChar → Char
  | .char c => c
  | .lone _ => '\uFFFD'

def Text.scalars (s : Text) : List Char := s.map scalarOf

/-- `https`, with a host parser. -/
def httpsTools (parseHost : List Char → Option String) : UrlReference.Tools String where
  defaultPort := 443
  parseHost

/-- What is accepted, and what is returned for use, stays within the origin of every page. -/
structure RedirectWithin (parseHost : List Char → Option String) (url : Option Text) : Prop where
  accepted : ∀ s, url = some s → isValidRedirectUrl toLowerCase url = true →
    ∀ base, (resolve (httpsTools parseHost) base s.scalars).SameOrigin base
  returned : ∀ base, (resolve (httpsTools parseHost) base
    (getSafeRedirectUrl toLowerCase url (text "/")).scalars).SameOrigin base

/-- A backslash right behind the first slash. -/
def beginsWithBackslash (url : Option Text) : Bool :=
  url.any fun s => startsWithText s.trimmed "/\\"

/-! ## Cleaned texts -/

section Cleaned

variable {lead rest trail : List Char} {c : Char}

theorem ascii_space : ∀ n < 128, jsSpace (Char.ofNat n) = true →
    (Char.ofNat n).isAlpha = false ∧ isSlash (Char.ofNat n) = false := by
  decide

/-- White space is neither a letter nor a slash. -/
theorem not_isAlpha_of_jsSpace (hc : jsSpace c = true) :
    c.isAlpha = false ∧ isSlash c = false := by
  by_cases hascii : c.toNat < 128
  · rw [← Char.ofNat_toNat c] at hc ⊢
    exact ascii_space _ hascii hc
  · constructor
    · have hval : c.val.toNat = c.toNat := rfl
      have hZ : 'Z'.val.toNat = 90 := rfl
      have hz : 'z'.val.toNat = 122 := rfl
      simp only [Char.isAlpha, Char.isUpper, Char.isLower, Bool.or_eq_false_iff,
        Bool.and_eq_false_iff, decide_eq_false_iff_not, UInt32.le_iff_toNat_le, ge_iff_le]
      omega
    · simp only [isSlash, Bool.or_eq_false_iff, beq_eq_false_iff_ne]
      constructor <;> rintro rfl <;> exact hascii (by decide)

/-- Tabs and newlines go from the ends in any case. -/
theorem isC0OrSpace_of_isTabOrNewline (hc : isTabOrNewline c = true) : isC0OrSpace c = true := by
  simp only [isTabOrNewline, Bool.or_eq_true, beq_iff_eq] at hc
  rcases hc with (rfl | rfl) | rfl <;> rfl

/-- A head that stays is the head of what is read. -/
theorem clean_cons (hc : isC0OrSpace c = false) :
    clean (c :: rest) =
      c :: (rest.rdropWhile isC0OrSpace).filter fun c => !isTabOrNewline c := by
  have hkeep : isTabOrNewline c = false := by
    by_contra htab
    rw [isC0OrSpace_of_isTabOrNewline (Bool.not_eq_false _ ▸ htab)] at hc
    cases hc
  rw [clean, Trim.trimBy_cons_of_neg (by simp [hc]), List.filter_cons_of_pos (by simp [hkeep])]

/-- White space in front goes, or what is read begins with white space. -/
theorem clean_append_space (rest : List Char) (hlead : ∀ c ∈ lead, jsSpace c = true) :
    clean (lead ++ rest) = clean rest ∨
      ∃ c behind, clean (lead ++ rest) = c :: behind ∧ jsSpace c = true := by
  obtain ⟨run, hrun, hsplit⟩ := Trim.exists_dropWhile isC0OrSpace lead
  cases hleft : lead.dropWhile isC0OrSpace with
  | nil =>
      rw [hleft, List.append_nil] at hsplit
      left
      rw [clean, hsplit, Trim.trimBy_append_of_all hrun, clean]
  | cons c left =>
      right
      have hc : isC0OrSpace c = false := by
        have hhead := List.head?_dropWhile_not isC0OrSpace lead
        rw [hleft] at hhead
        simpa using hhead
      have hspace := hlead c (by
        rw [hsplit, hleft]
        exact List.mem_append_right _ List.mem_cons_self)
      have hclean : clean (lead ++ rest) = clean (c :: (left ++ rest)) := by
        rw [clean, hsplit, hleft, List.append_assoc, Trim.trimBy_append_of_all hrun]
        rfl
      exact ⟨c, _, hclean.trans (clean_cons hc), hspace⟩

/-- The first character that is read behind a head. -/
theorem head?_filter_rdropWhile {d : Char} (hrest : ∀ c ∈ rest, isTabOrNewline c = false)
    (hd : ((rest ++ trail).rdropWhile isC0OrSpace |>.filter fun c => !isTabOrNewline c).head? =
      some d) : rest.head? = some d ∨ d ∈ trail := by
  have hpre := List.rdropWhile_prefix isC0OrSpace (rest ++ trail)
  cases hkept : (rest ++ trail).rdropWhile isC0OrSpace with
  | nil =>
      rw [hkept] at hd
      cases hd
  | cons c kept =>
      rw [hkept] at hd hpre
      cases rest with
      | nil =>
          right
          have hmem := (List.mem_filter.mp (List.mem_of_head? hd)).1
          exact hpre.subset hmem
      | cons e rest =>
          obtain rfl : c = e := (List.cons_prefix_cons.mp hpre).1
          rw [List.filter_cons_of_pos (by simp [hrest c List.mem_cons_self])] at hd
          exact .inl hd

end Cleaned

/-! ## Accepted texts -/

section Accepted

variable {toLowerCase} {parseHost : List Char → Option String} {s rest : Text}
  {base : Url String}

/-- An accepted text is one slash, and no slash or break behind it. -/
theorem trimmed_of_valid (h : isValidRedirectUrl toLowerCase (some s) = true) :
    ∃ rest, s.trimmed = .char '/' :: rest ∧ rest.head? ≠ some (.char '/') ∧
      ∀ c ∈ rest, c ∉ text "\r\n\t" := by
  simp only [isValidRedirectUrl] at h
  split at h
  · cases h
  · split at h
    · cases h
    · rename_i hslash
      split at h
      · cases h
      · rename_i hdouble
        split at h
        · cases h
        · split at h
          · cases h
          · rename_i hbreak
            have hstart : startsWithText s.trimmed "/" = true := by simpa using hslash
            obtain ⟨rest, hrest⟩ := List.isPrefixOf_iff_prefix.mp hstart
            refine ⟨rest, hrest.symm, fun hhead => hdouble ?_, fun c hc hmem => hbreak ?_⟩
            · obtain ⟨behind, rfl⟩ := List.head?_eq_some_iff.mp hhead
              exact List.isPrefixOf_iff_prefix.mpr ⟨behind, by rw [← hrest]; rfl⟩
            · refine List.any_eq_true.mpr ⟨c, ?_, decide_eq_true hmem⟩
              rw [← hrest]
              exact List.mem_append_right _ hc

/-- The blanks around a text are blanks for its characters. -/
theorem jsSpace_of_isTrimmed {run : Text} (hrun : ∀ c ∈ run, isTrimmed c = true) :
    ∀ c ∈ run.scalars, jsSpace c = true := by
  intro c hc
  obtain ⟨j, hj, rfl⟩ := List.mem_map.mp hc
  have hspace := hrun j hj
  cases j with
  | char c => exact hspace
  | lone unit => cases hspace

theorem not_isTabOrNewline_of_not_mem (hrest : ∀ c ∈ rest, c ∉ text "\r\n\t") :
    ∀ c ∈ rest.scalars, isTabOrNewline c = false := by
  intro c hc
  obtain ⟨j, hj, rfl⟩ := List.mem_map.mp hc
  have hnot := hrest j hj
  cases j with
  | lone unit => rfl
  | char c =>
      by_contra htab
      have htab : isTabOrNewline c = true := by simpa [scalarOf] using htab
      simp only [isTabOrNewline, Bool.or_eq_true, beq_iff_eq] at htab
      rcases htab with (rfl | rfl) | rfl <;> exact hnot (by decide)

/-- What stands behind the slash is no slash for a browser either. -/
theorem not_isSlash_of_head? {d : Char} (hslash : rest.head? ≠ some (.char '/'))
    (hback : rest.head? ≠ some (.char '\\')) (hd : rest.scalars.head? = some d) :
    isSlash d = false := by
  rw [Text.scalars, List.head?_map] at hd
  obtain ⟨j, hj, rfl⟩ := Option.map_eq_some_iff.mp hd
  cases j with
  | lone unit => rfl
  | char c =>
      simp only [scalarOf, isSlash, Bool.or_eq_false_iff, beq_eq_false_iff_ne]
      constructor
      · rintro rfl
        exact hslash hj
      · rintro rfl
        exact hback hj

/-- A path within white space stays. -/
theorem sameOrigin_framed {lead trail : Text} (hlead : ∀ c ∈ lead, isTrimmed c = true)
    (htrail : ∀ c ∈ trail, isTrimmed c = true) (hbreak : ∀ c ∈ rest, c ∉ text "\r\n\t")
    (hslash : rest.head? ≠ some (.char '/')) (hback : rest.head? ≠ some (.char '\\')) :
    (resolve (httpsTools parseHost) base
      (Text.scalars (lead ++ (.char '/' :: rest ++ trail)))).SameOrigin base := by
  have hscalars : Text.scalars (lead ++ (.char '/' :: rest ++ trail)) =
      lead.scalars ++ ('/' :: (rest.scalars ++ trail.scalars)) := by
    simp [Text.scalars, scalarOf]
  rw [hscalars]
  rcases clean_append_space ('/' :: (rest.scalars ++ trail.scalars)) (jsSpace_of_isTrimmed hlead)
    with hclean | ⟨c, behind, hclean, hspace⟩
  · rw [clean_cons (by decide)] at hclean
    refine UrlReference.sameOrigin_slash hclean fun d hd => ?_
    rcases head?_filter_rdropWhile (not_isTabOrNewline_of_not_mem hbreak) hd with hd | hd
    · exact not_isSlash_of_head? hslash hback hd
    · exact (not_isAlpha_of_jsSpace (jsSpace_of_isTrimmed htrail d hd)).2
  · obtain ⟨halpha, hnot⟩ := not_isAlpha_of_jsSpace hspace
    exact UrlReference.sameOrigin_other hclean halpha hnot

/-- A path without a backslash behind its slash stays, with and without the white space. -/
theorem sameOrigin_of_valid (h : isValidRedirectUrl toLowerCase (some s) = true)
    (hback : beginsWithBackslash (some s) = false) :
    (resolve (httpsTools parseHost) base s.scalars).SameOrigin base ∧
      (resolve (httpsTools parseHost) base s.trimmed.scalars).SameOrigin base := by
  obtain ⟨rest, hrest, hslash, hbreak⟩ := trimmed_of_valid h
  have hnot : rest.head? ≠ some (.char '\\') := by
    intro hhead
    obtain ⟨behind, rfl⟩ := List.head?_eq_some_iff.mp hhead
    have hstart : beginsWithBackslash (some s) = true := by
      simp only [beginsWithBackslash, Option.any_some, startsWithText]
      exact List.isPrefixOf_iff_prefix.mpr ⟨behind, by rw [hrest]; rfl⟩
    rw [hback] at hstart
    cases hstart
  obtain ⟨lead, trail, hsplit, hlead, htrail⟩ := Trim.exists_trimBy isTrimmed s
  have htrimmed : Trim.trimBy isTrimmed s = .char '/' :: rest := hrest
  constructor
  · rw [hsplit, htrimmed]
    exact sameOrigin_framed hlead htrail hbreak hslash hnot
  · rw [hrest]
    have hframed : (resolve (httpsTools parseHost) base
        (Text.scalars ([] ++ (.char '/' :: rest ++ [])))).SameOrigin base :=
      sameOrigin_framed (fun _ hc => (List.not_mem_nil hc).elim)
        (fun _ hc => (List.not_mem_nil hc).elim) hbreak hslash hnot
    rwa [List.append_nil, List.nil_append] at hframed

/-- The start page. -/
def homeUrl (host : String) (port : Option ℕ) : Url String where
  username := []
  password := []
  host
  port
  path := [[]]
  query := none
  fragment := none

/-- A backslash leads to a place that does not depend on the page. -/
theorem leaves_of_backslash (parseHost : List Char → Option String)
    (hback : beginsWithBackslash (some s) = true) :
    ¬∀ base, (resolve (httpsTools parseHost) base s.trimmed.scalars).SameOrigin base := by
  intro hall
  obtain ⟨behind, hbehind⟩ := List.isPrefixOf_iff_prefix.mp
    (show (text "/\\").isPrefixOf s.trimmed = true from hback)
  have hscalars : s.trimmed.scalars = '/' :: '\\' :: Text.scalars behind := by
    rw [← hbehind]
    rfl
  have hclean : clean s.trimmed.scalars = '/' :: '\\' ::
      ((Text.scalars behind).rdropWhile isC0OrSpace).filter fun c => !isTabOrNewline c := by
    rw [hscalars, clean_cons (by decide), Trim.rdropWhile_cons_of_neg (by decide),
      List.filter_cons_of_pos (by decide)]
  have hports : (homeUrl "" none).port ≠ (homeUrl "" (some 8443)).port := by decide
  have hsame : resolve (httpsTools parseHost) (homeUrl "" none) s.trimmed.scalars =
      resolve (httpsTools parseHost) (homeUrl "" (some 8443)) s.trimmed.scalars :=
    UrlReference.resolve_authority hclean rfl
  refine UrlReference.not_sameOrigin_both hports (hall (homeUrl "" none)) ?_
  rw [hsame]
  exact hall (homeUrl "" (some 8443))

end Accepted

/-- For every string, and none, and every host parser. -/
theorem redirect_within_origin_iff (parseHost : List Char → Option String) (url : Option Text) :
    RedirectWithin toLowerCase parseHost url ↔
      ¬(isValidRedirectUrl toLowerCase url = true ∧ beginsWithBackslash url = true) := by
  constructor
  · rintro hwithin ⟨hvalid, hback⟩
    cases url with
    | none => cases hvalid
    | some s =>
        refine leaves_of_backslash parseHost hback fun base => ?_
        have hreturned := hwithin.returned base
        rw [getSafeRedirectUrl, if_pos hvalid] at hreturned
        exact hreturned
  · intro hnot
    have hback : ∀ s, url = some s → isValidRedirectUrl toLowerCase url = true →
        beginsWithBackslash (some s) = false := by
      rintro s rfl hvalid
      exact Bool.eq_false_iff.mpr fun hback => hnot ⟨hvalid, hback⟩
    refine ⟨fun s hs hvalid base => ?_, fun base => ?_⟩
    · exact (sameOrigin_of_valid (hs ▸ hvalid) (hback s hs hvalid)).1
    · unfold getSafeRedirectUrl
      split
      · rename_i hvalid
        cases url with
        | none => cases hvalid
        | some s => exact (sameOrigin_of_valid hvalid (hback s rfl hvalid)).2
      · exact UrlReference.sameOrigin_slash rfl fun d hd => by cases hd

/-- Hosts that are what is written. -/
def plainHost (host : List Char) : Option String := some (String.ofList host)

/-- From the panel to another host. -/
theorem backslash_leaves :
    isValidRedirectUrl id (some (text "/\\evil.com/login")) = true ∧
      resolve (httpsTools plainHost) (homeUrl "panel.example" none)
          (getSafeRedirectUrl id (some (text "/\\evil.com/login")) (text "/")).scalars =
        .url { homeUrl "evil.com" none with path := ["login".toList] } ∧
      ¬RedirectWithin id plainHost (some (text "/\\evil.com/login")) := by
  have hvalid : isValidRedirectUrl id (some (text "/\\evil.com/login")) = true := by
    decide +kernel
  have htrimmed : (text "/\\evil.com/login").trimmed.scalars = "/\\evil.com/login".toList := by
    decide +kernel
  have hreturned : (getSafeRedirectUrl id (some (text "/\\evil.com/login")) (text "/")).scalars =
      "/\\evil.com/login".toList := by
    rw [getSafeRedirectUrl, if_pos hvalid, Option.getD_some, htrimmed]
  have hleaves : resolve (httpsTools plainHost) (homeUrl "panel.example" none)
      "/\\evil.com/login".toList =
        .url { homeUrl "evil.com" none with path := ["login".toList] } := by
    decide +kernel
  rw [hreturned]
  refine ⟨hvalid, hleaves, fun hwithin => ?_⟩
  obtain ⟨u, hu, hhost, -⟩ := hwithin.returned (homeUrl "panel.example" none)
  rw [hreturned, hleaves] at hu
  cases hu
  exact absurd hhost (by decide)

end Incudal
