/-
# `Lib.UrlReference` — references resolved against a URL with a special scheme

A browser resolves a reference by first taking the control characters and blanks
from its ends, and tabs and newlines from everywhere, and by reading `\` as `/`.
Two slashes then begin an authority of their own; anything else without a
scheme keeps the authority of the base.

    //host:port/path        another host, whatever the base is
    /path, path, ?q, #f     the host and port of the base

Segments and queries are left as they stand, before percent-encoding; the parser
of hosts is a parameter.  A reference with a scheme of its own is not followed.
-/
import Incudal.Lib.Trim

namespace UrlReference

/-- What depends on the scheme, and the host parser. -/
structure Tools (Host : Type*) where
  defaultPort : ℕ
  parseHost : List Char → Option Host

/-- A URL with the scheme at hand. -/
structure Url (Host : Type*) where
  username : List Char
  password : List Char
  host : Host
  /-- none is the default port -/
  port : Option ℕ
  path : List (List Char)
  query : Option (List Char)
  fragment : Option (List Char)
deriving DecidableEq, Repr

inductive Resolution (Host : Type*)
  /-- the reference has a scheme -/
  | absolute
  | failure
  | url (u : Url Host)
deriving DecidableEq, Repr

variable {Host : Type*}

/-- Both have the host and port that tell origins of one scheme apart. -/
def Resolution.SameOrigin (base : Url Host) (r : Resolution Host) : Prop :=
  ∃ u, r = .url u ∧ u.host = base.host ∧ u.port = base.port

/-! ## Characters -/

def isC0OrSpace (c : Char) : Bool := decide (c.toNat ≤ 0x20)

def isTabOrNewline (c : Char) : Bool := c == '\t' || c == '\n' || c == '\r'

/-- In a special URL both are slashes. -/
def isSlash (c : Char) : Bool := c == '/' || c == '\\'

def endsAuthority (c : Char) : Bool := isSlash c || c == '?' || c == '#'

def isSchemeChar (c : Char) : Bool := c.isAlphanum || c == '+' || c == '-' || c == '.'

/-- The characters that are read. -/
def clean (input : List Char) : List Char :=
  (Trim.trimBy isC0OrSpace input).filter fun c => !isTabOrNewline c

def hasScheme : List Char → Bool
  | [] => false
  | c :: rest => c.isAlpha && (rest.dropWhile isSchemeChar).head? == some ':'

/-! ## Paths -/

def isSingleDot (segment : List Char) : Bool :=
  [".".toList, "%2e".toList].contains (segment.map Char.toLower)

def isDoubleDot (segment : List Char) : Bool :=
  ["..".toList, ".%2e".toList, "%2e.".toList, "%2e%2e".toList].contains
    (segment.map Char.toLower)

/-- The path, as its segments are read one by one. -/
def addSegments : List (List Char) → List (List Char) → List (List Char)
  | path, [] => path
  | path, [last] =>
      if isDoubleDot last then path.dropLast ++ [[]]
      else if isSingleDot last then path ++ [[]]
      else path ++ [last]
  | path, segment :: rest =>
      if isDoubleDot segment then addSegments path.dropLast rest
      else if isSingleDot segment then addSegments path rest
      else addSegments (path ++ [segment]) rest

/-- What stands before a separator, and behind it if it is there. -/
def splitAt (separator : Char) (text : List Char) : List Char × Option (List Char) :=
  match text.dropWhile (· != separator) with
  | [] => (text, none)
  | _ :: behind => (text.takeWhile (· != separator), some behind)

/-- Path, query and fragment are read behind those segments. -/
def parsePath (u : Url Host) (path : List (List Char)) (text : List Char) : Url Host :=
  let (text, fragment) := splitAt '#' text
  let (text, query) := splitAt '?' text
  { u with path := addSegments path (text.splitOnP isSlash), query, fragment }

/-! ## Authorities -/

/-- The host, and what stands behind a colon outside of brackets. -/
def splitHost : Bool → List Char → List Char × Option (List Char)
  | _, [] => ([], none)
  | insideBrackets, c :: rest =>
      if c == ':' && !insideBrackets then ([], some rest)
      else
        let inside := if c == '[' then true else if c == ']' then false else insideBrackets
        let (host, port) := splitHost inside rest
        (c :: host, port)

/-- The port; none is one that cannot be read. -/
def parsePort (defaultPort : ℕ) (text : List Char) : Option (Option ℕ) :=
  if !text.all Char.isDigit then none
  else if text = [] then some none
  else
    let port := text.foldl (fun n c => 10 * n + (c.toNat - '0'.toNat)) 0
    if 65535 < port then none
    else if port = defaultPort then some none
    else some (some port)

/-- What stands before the last `@`, and behind it. -/
def splitCredentials (authority : List Char) : Option (List Char) × List Char :=
  match authority.reverse.dropWhile (· != '@') with
  | [] => (none, authority)
  | _ :: before =>
      (some before.reverse, (authority.reverse.takeWhile (· != '@')).reverse)

/-- A URL from the authority on. -/
def parseAuthority (tools : Tools Host) (text : List Char) : Resolution Host :=
  let authority := text.takeWhile fun c => !endsAuthority c
  let rest := text.dropWhile fun c => !endsAuthority c
  let (credentials, hostAndPort) := splitCredentials authority
  let (username, password) := splitAt ':' (credentials.getD [])
  let (hostText, portText) := splitHost false hostAndPort
  if hostText = [] then .failure
  else
    match tools.parseHost hostText, parsePort tools.defaultPort (portText.getD []) with
    | some host, some port =>
        let pathText := match rest with
          | c :: behind => if isSlash c then behind else rest
          | [] => []
        .url (parsePath
          { username, password := password.getD [], host, port, path := [], query := none,
            fragment := none } [] pathText)
    | _, _ => .failure

/-! ## References -/

/-- A reference without a scheme, once cleaned. -/
def resolveRelative (tools : Tools Host) (base : Url Host) (text : List Char) : Resolution Host :=
  match text with
  | [] => .url { base with fragment := none }
  | c :: rest =>
      if isSlash c then
        match rest with
        | d :: _ =>
            if isSlash d then parseAuthority tools (rest.dropWhile isSlash)
            else .url (parsePath base [] rest)
        | [] => .url (parsePath base [] rest)
      else if c == '?' then
        let (query, fragment) := splitAt '#' rest
        .url { base with query := some query, fragment }
      else if c == '#' then .url { base with fragment := some rest }
      else .url (parsePath base base.path.dropLast text)

def resolve (tools : Tools Host) (base : Url Host) (input : List Char) : Resolution Host :=
  let text := clean input
  if hasScheme text then .absolute else resolveRelative tools base text

section Lemmas

variable {tools : Tools Host} {base base' : Url Host} {input text rest : List Char} {c : Char}

@[simp] theorem parsePath_host (u : Url Host) (path : List (List Char)) (text : List Char) :
    (parsePath u path text).host = u.host := rfl

@[simp] theorem parsePath_port (u : Url Host) (path : List (List Char)) (text : List Char) :
    (parsePath u path text).port = u.port := rfl

theorem hasScheme_cons_of_not_isAlpha (hc : c.isAlpha = false) : hasScheme (c :: rest) = false := by
  rw [hasScheme, hc, Bool.false_and]

/-- One slash keeps the authority. -/
theorem sameOrigin_slash (htext : clean input = '/' :: rest)
    (hrest : ∀ d ∈ rest.head?, isSlash d = false) :
    (resolve tools base input).SameOrigin base := by
  simp only [resolve, htext, hasScheme_cons_of_not_isAlpha (c := '/') rfl, Bool.false_eq_true,
    if_false, resolveRelative]
  rw [if_pos (show isSlash '/' = true from rfl)]
  cases rest with
  | nil => exact ⟨_, rfl, rfl, rfl⟩
  | cons d rest =>
      dsimp only
      rw [if_neg (by simp [hrest d rfl])]
      exact ⟨_, rfl, rfl, rfl⟩

/-- So does a reference that begins with neither a slash nor a letter. -/
theorem sameOrigin_other (htext : clean input = c :: rest) (halpha : c.isAlpha = false)
    (hslash : isSlash c = false) : (resolve tools base input).SameOrigin base := by
  simp only [resolve, htext, hasScheme_cons_of_not_isAlpha halpha, Bool.false_eq_true, if_false,
    resolveRelative, hslash]
  split
  · exact ⟨_, rfl, rfl, rfl⟩
  · split <;> exact ⟨_, rfl, rfl, rfl⟩

/-- Two slashes make the base irrelevant. -/
theorem resolve_authority {d : Char} (htext : clean input = '/' :: d :: rest)
    (hd : isSlash d = true) : resolve tools base input = resolve tools base' input := by
  simp only [resolve, htext, hasScheme_cons_of_not_isAlpha (c := '/') rfl, Bool.false_eq_true,
    if_false, resolveRelative, hd, if_true]
  rw [if_pos (show isSlash '/' = true from rfl), if_pos (show isSlash '/' = true from rfl)]

/-- No URL has the origins of two bases that differ in host or port. -/
theorem not_sameOrigin_both {r : Resolution Host} (hne : base.port ≠ base'.port)
    (h : r.SameOrigin base) (h' : r.SameOrigin base') : False := by
  obtain ⟨u, rfl, -, hport⟩ := h
  obtain ⟨u', hu', -, hport'⟩ := h'
  cases hu'
  exact hne (hport.symm.trans hport')

end Lemmas

end UrlReference
