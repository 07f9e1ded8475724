/-
# `PpsConfig` — the limits of the packet guard, as the agent keeps its file

At every synchronization the agent reads the configuration of the guard, rewrites the
lines of four settings, adds the two that have to be there, and writes the file again
and reloads the guard if anything has changed.

The rewritten lines are what they would be rewritten to, and all others are kept.
But a line loses one carriage return at its end each time, and is read with one less
the next time; so a text with `\r\r\n` is changed again by the second application
(`carriage_return_rewritten`).  On the texts in which no line of another kind ends
with a carriage return the first application is the last (`pps_config_normalized_iff`).
-/
import Incudal.InterfaceCounters
import Incudal.Lib.Delimited
import Incudal.Lib.TextLines

namespace Incudal

/-! ## The code -/

def minimumPPS : ℤ := 20000

def maximumPPS : ℤ := 500000

def defaultObserveSecs : ℤ := 120

/-- The settings that are looked for in each line, in this order. -/
inductive PpsKey
  | limit | singleTargetLimit | minLimit | observeSeconds
deriving DecidableEq, Repr

namespace PpsKey

def name : PpsKey → String
  | .limit => "PPS_LIMIT"
  | .singleTargetLimit => "PPS_SINGLE_TARGET_LIMIT"
  | .minLimit => "PPS_MIN_LIMIT"
  | .observeSeconds => "PPS_OBSERVE_SECONDS"

def all : List PpsKey := [.limit, .singleTargetLimit, .minLimit, .observeSeconds]

/-- `key + "="` -/
def opening (key : PpsKey) : List Char := key.name.toList ++ ['=']

end PpsKey

/-- `strings.TrimSpace` -/
def trimSpace (s : List Char) : List Char := Trim.trimBy goSpace s

/-- `strconv.Itoa` -/
def itoa (n : ℤ) : List Char :=
  if n < 0 then '-' :: Nat.toDigits 10 n.natAbs else Nat.toDigits 10 n.natAbs

/-- The number of a text of digits. -/
def digitsOf (s : List Char) : Option ℤ :=
  if s = [] ∨ ¬s.all Char.isDigit then none else some (Nat.ofDigitChars 10 s 0 : ℕ)

/-- A number of 64 bits, else an error. -/
def int64 (n : ℤ) : Option ℤ := if -2 ^ 63 ≤ n ∧ n < 2 ^ 63 then some n else none

/-- `strconv.Atoi`: digits, with a sign or without. -/
def atoi (s : List Char) : Option ℤ :=
  if s.head? = some '-' then (digitsOf s.tail).bind fun n => int64 (-n)
  else if s.head? = some '+' then (digitsOf s.tail).bind int64
  else (digitsOf s).bind int64

/-- What `PPS_LIMIT` and `PPS_SINGLE_TARGET_LIMIT` become. -/
def limitOf (parsed : Option ℤ) : ℤ :=
  let parsed := match parsed with
    | some n => if n < minimumPPS then minimumPPS else n
    | none => minimumPPS
  if maximumPPS < parsed then maximumPPS else parsed

/-- What `PPS_OBSERVE_SECONDS` becomes. -/
def observeSecondsOf (parsed : Option ℤ) : ℤ :=
  match parsed with
  | some n => if n < 1 then defaultObserveSecs else n
  | none => defaultObserveSecs

/-- The value that a setting is given. -/
def PpsKey.normalize (key : PpsKey) (value : List Char) : ℤ :=
  match key with
  | .limit | .singleTargetLimit => limitOf (atoi value)
  | .minLimit => minimumPPS
  | .observeSeconds => observeSecondsOf (atoi value)

/-- The setting of a line. -/
def keyOf (trimmed : List Char) : Option PpsKey :=
  PpsKey.all.find? fun key => key.opening.isPrefixOf trimmed

/-- The lines so far, `updates` and `seen`. -/
structure PpsState where
  lines : List (List Char)
  updates : PpsKey → List Char
  seen : PpsKey → Bool

def PpsState.initial : PpsState where
  lines := []
  updates
    | .minLimit => itoa minimumPPS
    | .observeSeconds => itoa defaultObserveSecs
    | _ => []
  seen _ := false

def PpsState.next (s : PpsState) (line : List Char) : PpsState :=
  let trimmed := trimSpace line
  match keyOf trimmed with
  | none => { s with lines := s.lines ++ [line] }
  | some key =>
      let value := trimSpace (trimmed.drop key.opening.length)
      let updates := Function.update s.updates key (itoa (key.normalize value))
      { lines := s.lines ++ [key.opening ++ updates key]
        updates
        seen := Function.update s.seen key true }

/-- The lines of a content, line feeds at its end left out. -/
def configLines (content : List Char) : List (List Char) :=
  let content := TextLines.crlf content
  let content := content.rdropWhile (· == '\n')
  let lines := content.splitOn '\n'
  if lines = [[]] then [] else lines

def normalizeConfig (content : List Char) : List Char :=
  let s := (configLines content).foldl PpsState.next .initial
  let missing := [PpsKey.minLimit, .observeSeconds].filter fun key => !s.seen key
  ['\n'].intercalate (s.lines ++ missing.map fun key => key.opening ++ s.updates key) ++ ['\n']

/-! ## What is promised -/

/-- The lines of a normalized text, each of which ends with a line feed. -/
def outputLines (content : List Char) : List (List Char) := (content.splitOn '\n').dropLast

/-- The line gives the setting a value. -/
def Assigns (line : List Char) (key : PpsKey) (n : ℤ) : Prop := line = key.opening ++ itoa n

structure ConfigNormalized (content : List Char) : Prop where
  idempotent : normalizeConfig (normalizeConfig content) = normalizeConfig content
  limits : ∀ line ∈ outputLines (normalizeConfig content), ∀ key,
    keyOf (trimSpace line) = some key → key = .limit ∨ key = .singleTargetLimit →
      ∃ n, Assigns line key n ∧ minimumPPS ≤ n ∧ n ≤ maximumPPS
  minLimit : ∃ line ∈ outputLines (normalizeConfig content), Assigns line .minLimit minimumPPS
  minLimits : ∀ line ∈ outputLines (normalizeConfig content),
    keyOf (trimSpace line) = some .minLimit → Assigns line .minLimit minimumPPS
  observeSeconds : ∃ line ∈ outputLines (normalizeConfig content), ∃ n,
    Assigns line .observeSeconds n ∧ 1 ≤ n
  observed : ∀ line ∈ outputLines (normalizeConfig content),
    keyOf (trimSpace line) = some .observeSeconds → ∃ n, Assigns line .observeSeconds n ∧ 1 ≤ n
  kept : (outputLines (normalizeConfig content)).filter
      (fun line => keyOf (trimSpace line) = none) =
    (configLines content).filter fun line => keyOf (trimSpace line) = none

/-! ## Numbers -/

section Numbers

variable {key : PpsKey} {value : List Char} {n : ℤ}

theorem isDigit_itoa (hn : 0 ≤ n) : ∀ c ∈ itoa n, c.isDigit = true := by
  rw [itoa, if_neg (by omega)]
  exact fun c hc => Nat.isDigit_of_mem_toDigits (by decide) (by decide) hc

theorem itoa_ne_nil (hn : 0 ≤ n) : itoa n ≠ [] := by
  rw [itoa, if_neg (by omega)]
  exact Nat.toDigits_ne_nil

/-- A number that is not negative is read as it was written. -/
theorem atoi_itoa (hn : 0 ≤ n) (hlt : n < 2 ^ 63) : atoi (itoa n) = some n := by
  have hdigits := isDigit_itoa hn
  obtain ⟨c, rest, hcons⟩ := List.exists_cons_of_ne_nil (itoa_ne_nil hn)
  have hc : c.isDigit = true := hdigits c (by rw [hcons]; exact List.mem_cons_self)
  have hminus : c ≠ '-' := by
    rintro rfl
    cases hc
  have hplus : c ≠ '+' := by
    rintro rfl
    cases hc
  have hvalue : ((Nat.ofDigitChars 10 (itoa n) 0 : ℕ) : ℤ) = n := by
    rw [itoa, if_neg (by omega)]
    simp
    omega
  have hhead : (itoa n).head? = some c := by
    rw [hcons]
    rfl
  have hread : digitsOf (itoa n) = some n := by
    rw [digitsOf, if_neg, hvalue]
    rintro (h | h)
    · exact itoa_ne_nil hn h
    · exact h (List.all_eq_true.mpr hdigits)
  rw [atoi, hhead, if_neg fun h => hminus (Option.some.inj h),
    if_neg fun h => hplus (Option.some.inj h), hread]
  exact if_pos ⟨by omega, hlt⟩

theorem atoi_lt (h : atoi value = some n) : n < 2 ^ 63 := by
  have hint64 : ∀ m, int64 m = some n → n < 2 ^ 63 := by
    intro m hm
    obtain ⟨hrange, heq⟩ := Option.ite_none_right_eq_some.mp hm
    cases heq
    exact hrange.2
  unfold atoi at h
  split at h
  · obtain ⟨m, -, hm⟩ := Option.bind_eq_some_iff.mp h
    exact hint64 _ hm
  · split at h
    · obtain ⟨m, -, hm⟩ := Option.bind_eq_some_iff.mp h
      exact hint64 _ hm
    · obtain ⟨m, -, hm⟩ := Option.bind_eq_some_iff.mp h
      exact hint64 _ hm

theorem limitOf_bounds (parsed : Option ℤ) :
    minimumPPS ≤ limitOf parsed ∧ limitOf parsed ≤ maximumPPS := by
  unfold limitOf minimumPPS maximumPPS
  cases parsed with
  | none => decide
  | some n =>
      dsimp only
      split <;> split <;> omega

theorem limitOf_self (hmin : minimumPPS ≤ n) (hmax : n ≤ maximumPPS) : limitOf (some n) = n := by
  simp only [limitOf]
  rw [if_neg (by omega), if_neg (by omega)]

theorem observeSecondsOf_pos (parsed : Option ℤ) : 1 ≤ observeSecondsOf parsed := by
  unfold observeSecondsOf defaultObserveSecs
  cases parsed with
  | none => decide
  | some n =>
      dsimp only
      split <;> omega

/-- Every value is a positive number of 64 bits. -/
theorem normalize_bounds (key : PpsKey) (value : List Char) :
    1 ≤ key.normalize value ∧ key.normalize value < 2 ^ 63 := by
  have hlimit := limitOf_bounds (atoi value)
  unfold minimumPPS maximumPPS at hlimit
  cases key with
  | limit | singleTargetLimit =>
      simp only [PpsKey.normalize]
      omega
  | minLimit =>
      show 1 ≤ minimumPPS ∧ minimumPPS < 2 ^ 63
      decide
  | observeSeconds =>
      refine ⟨observeSecondsOf_pos _, ?_⟩
      simp only [PpsKey.normalize, observeSecondsOf, defaultObserveSecs]
      split
      · rename_i n hn
        have := atoi_lt hn
        split <;> omega
      · decide

/-- A value that was given is given again. -/
theorem normalize_itoa (key : PpsKey) (value : List Char) :
    key.normalize (itoa (key.normalize value)) = key.normalize value := by
  obtain ⟨hpos, hlt⟩ := normalize_bounds key value
  have hread : atoi (itoa (key.normalize value)) = some (key.normalize value) :=
    atoi_itoa (by omega) hlt
  cases key with
  | limit | singleTargetLimit =>
      obtain ⟨hmin, hmax⟩ := limitOf_bounds (atoi value)
      simp only [PpsKey.normalize] at hread ⊢
      rw [hread, limitOf_self hmin hmax]
  | minLimit => rfl
  | observeSeconds =>
      have hone := observeSecondsOf_pos (atoi value)
      simp only [PpsKey.normalize] at hread ⊢
      rw [hread]
      exact if_neg (by omega)

end Numbers

/-! ## Lines -/

/-- A line as the loop leaves it. -/
def normalizeLine (line : List Char) : List Char :=
  match keyOf (trimSpace line) with
  | none => line
  | some key =>
      key.opening ++ itoa (key.normalize (trimSpace ((trimSpace line).drop key.opening.length)))

section Lines

variable {key : PpsKey} {n : ℤ} {line : List Char} {ls : List (List Char)} {content : List Char}

theorem keyOf_opening (key : PpsKey) (rest : List Char) :
    keyOf (key.opening ++ rest) = some key := by
  cases key <;> rfl

theorem trimSpace_of_digits {digits : List Char} (hne : digits ≠ [])
    (hdigits : ∀ c ∈ digits, c.isDigit = true) : trimSpace digits = digits := by
  obtain ⟨c, rest, hcons⟩ := List.exists_cons_of_ne_nil hne
  have hfirst := goSpace_of_isDigit (hdigits c (by rw [hcons]; exact List.mem_cons_self))
  have hlast := goSpace_of_isDigit (hdigits _ (List.getLast_mem hne))
  exact Trim.trimBy_eq_self hfirst hlast ⟨hcons, List.getLast?_eq_getLast_of_ne_nil hne⟩

/-- An assignment is neither trimmed nor read as anything else. -/
theorem trimSpace_assignment (key : PpsKey) (hn : 0 ≤ n) :
    trimSpace (key.opening ++ itoa n) = key.opening ++ itoa n := by
  have hne := itoa_ne_nil hn
  have hlast := goSpace_of_isDigit (isDigit_itoa hn _ (List.getLast_mem hne))
  have hend : (key.opening ++ itoa n).getLast? = some ((itoa n).getLast hne) := by
    rw [List.getLast?_append_of_ne_nil _ hne, List.getLast?_eq_getLast_of_ne_nil hne]
  have hstart : key.opening ++ itoa n = 'P' :: (key.opening ++ itoa n).tail := by
    cases key <;> rfl
  exact Trim.trimBy_eq_self (by decide) hlast ⟨hstart, hend⟩

theorem normalizeLine_assignment (key : PpsKey) (value : List Char) :
    normalizeLine (key.opening ++ itoa (key.normalize value)) =
      key.opening ++ itoa (key.normalize value) := by
  obtain ⟨hpos, -⟩ := normalize_bounds key value
  have hn : 0 ≤ key.normalize value := by omega
  have hdigits := isDigit_itoa hn
  rw [normalizeLine, trimSpace_assignment key hn, keyOf_opening]
  dsimp only
  rw [List.drop_left, trimSpace_of_digits (itoa_ne_nil hn) hdigits, normalize_itoa]

theorem normalizeLine_of_none (h : keyOf (trimSpace line) = none) : normalizeLine line = line := by
  rw [normalizeLine, h]

/-- A line of a setting becomes an assignment of it. -/
theorem normalizeLine_of_some (h : keyOf (trimSpace line) = some key) :
    ∃ value, normalizeLine line = key.opening ++ itoa (key.normalize value) := by
  rw [normalizeLine, h]
  exact ⟨_, rfl⟩

theorem keyOf_normalizeLine (line : List Char) :
    keyOf (trimSpace (normalizeLine line)) = keyOf (trimSpace line) := by
  cases h : keyOf (trimSpace line) with
  | none => rw [normalizeLine_of_none h, h]
  | some key =>
      obtain ⟨value, hvalue⟩ := normalizeLine_of_some h
      obtain ⟨hpos, -⟩ := normalize_bounds key value
      rw [hvalue, trimSpace_assignment key (by omega), keyOf_opening]

/-- What the loop has, after some lines. -/
theorem foldl_next (s : PpsState) (ls : List (List Char)) :
    (ls.foldl PpsState.next s).lines = s.lines ++ ls.map normalizeLine ∧
      ∀ key, (ls.foldl PpsState.next s).seen key =
          (s.seen key || ls.any fun line => keyOf (trimSpace line) == some key) ∧
        ((ls.any fun line => keyOf (trimSpace line) == some key) = false →
          (ls.foldl PpsState.next s).updates key = s.updates key) := by
  induction ls generalizing s with
  | nil => simp
  | cons line ls ih =>
      obtain ⟨hlines, hkeys⟩ := ih (s.next line)
      rw [List.foldl_cons, hlines]
      cases h : keyOf (trimSpace line) with
      | none =>
          have hnext : s.next line = { s with lines := s.lines ++ [line] } := by
            simp only [PpsState.next, h]
          refine ⟨by simp [hnext, normalizeLine_of_none h], fun key => ?_⟩
          simpa [hnext, h] using hkeys key
      | some found =>
          have hnext : s.next line =
              { lines := s.lines ++ [normalizeLine line]
                updates := Function.update s.updates found (itoa (found.normalize
                  (trimSpace ((trimSpace line).drop found.opening.length))))
                seen := Function.update s.seen found true } := by
            simp only [PpsState.next, normalizeLine, h, Function.update_self]
          refine ⟨by simp [hnext], fun key => ?_⟩
          obtain ⟨hseen, hupdates⟩ := hkeys key
          rw [hnext] at hseen hupdates
          by_cases hkey : key = found
          · subst hkey
            exact ⟨by simpa [hnext, h] using hseen, by simp [h]⟩
          · have hne : found ≠ key := Ne.symm hkey
            exact ⟨by simpa [hnext, h, hkey, hne, beq_false_of_ne hne] using hseen,
              by simpa [hnext, h, hkey, hne] using hupdates⟩

/-- A setting that no line has. -/
def Missing (ls : List (List Char)) (key : PpsKey) : Prop :=
  ∀ line ∈ ls, keyOf (trimSpace line) ≠ some key

instance (ls : List (List Char)) (key : PpsKey) : Decidable (Missing ls key) :=
  inferInstanceAs (Decidable (∀ line ∈ ls, keyOf (trimSpace line) ≠ some key))

/-- What a setting is given when no line has it. -/
def defaultLine (key : PpsKey) : List Char :=
  key.opening ++ PpsState.initial.updates key

def addedLines (ls : List (List Char)) : List (List Char) :=
  ([PpsKey.minLimit, .observeSeconds].filter fun key => decide (Missing ls key)).map defaultLine

/-- The lines that are written. -/
def normalizedLines (ls : List (List Char)) : List (List Char) :=
  ls.map normalizeLine ++ addedLines ls

theorem any_eq_false_iff_missing (ls : List (List Char)) (key : PpsKey) :
    (ls.any fun line => keyOf (trimSpace line) == some key) = false ↔ Missing ls key := by
  simp [Missing]

theorem normalizedLines_ne_nil (ls : List (List Char)) : normalizedLines ls ≠ [] := by
  cases ls with
  | nil => decide
  | cons line ls => simp [normalizedLines]

theorem normalizeConfig_eq (content : List Char) :
    normalizeConfig content = TextLines.unlines (normalizedLines (configLines content)) := by
  obtain ⟨hlines, hkeys⟩ := foldl_next .initial (configLines content)
  have hmissing : ∀ key, (!((configLines content).foldl PpsState.next .initial).seen key) =
      decide (Missing (configLines content) key) := fun key => by
    have hseen := (hkeys key).1
    have hiff := any_eq_false_iff_missing (configLines content) key
    rw [hseen, PpsState.initial, Bool.false_or]
    cases hany : (configLines content).any fun line => keyOf (trimSpace line) == some key with
    | false => simp [hiff.mp hany]
    | true =>
        have hnot : ¬Missing (configLines content) key := fun h => by
          rw [hiff.mpr h] at hany
          cases hany
        simp [hnot]
  have hadded : ([PpsKey.minLimit, .observeSeconds].filter fun key =>
      !((configLines content).foldl PpsState.next .initial).seen key).map (fun key =>
        key.opening ++ ((configLines content).foldl PpsState.next .initial).updates key) =
          addedLines (configLines content) := by
    simp only [hmissing, addedLines]
    refine List.map_congr_left fun key hkey => ?_
    obtain ⟨-, hfree⟩ := List.mem_filter.mp hkey
    rw [defaultLine, (hkeys key).2 ((any_eq_false_iff_missing _ _).mpr (of_decide_eq_true hfree))]
  rw [TextLines.unlines_eq_intercalate (normalizedLines_ne_nil _)]
  simp only [normalizeConfig, hlines, hadded]
  rfl

theorem configLines_eq (content : List Char) : configLines content = TextLines.lines content := by
  unfold configLines TextLines.lines TextLines.split
  dsimp only
  change (if (TextLines.trimEnd (TextLines.crlf content)).splitOn '\n' = [[]] then []
    else (TextLines.trimEnd (TextLines.crlf content)).splitOn '\n') = _
  generalize TextLines.trimEnd (TextLines.crlf content) = t
  have hiff : t.splitOn '\n' = [[]] ↔ t = [] := by
    constructor
    · intro h
      have hjoin : ['\n'].intercalate (t.splitOn '\n') = t := List.intercalate_splitOn '\n'
      rw [h] at hjoin
      exact hjoin.symm
    · rintro rfl
      rfl
  simp only [hiff]

theorem feed_not_mem_configLines (h : line ∈ configLines content) : '\n' ∉ line :=
  TextLines.feed_not_mem_lines (configLines_eq content ▸ h)

/-! What every written line is. -/

theorem defaultLine_eq (hkey : key = .minLimit ∨ key = .observeSeconds) :
    defaultLine key = key.opening ++ itoa (key.normalize []) := by
  rcases hkey with rfl | rfl <;> rfl

theorem mem_addedLines : line ∈ addedLines ls ↔
    ∃ key, (key = .minLimit ∨ key = .observeSeconds) ∧ Missing ls key ∧ defaultLine key = line := by
  simp [addedLines, and_assoc]

/-- A written line that is of a setting assigns it. -/
theorem assignment_of_mem (h : line ∈ normalizedLines ls)
    (hkey : keyOf (trimSpace line) = some key) :
    ∃ value, line = key.opening ++ itoa (key.normalize value) := by
  rcases List.mem_append.mp h with h | h
  · obtain ⟨l, -, rfl⟩ := List.mem_map.mp h
    rw [keyOf_normalizeLine] at hkey
    exact normalizeLine_of_some hkey
  · obtain ⟨added, hadded, -, rfl⟩ := mem_addedLines.mp h
    rw [defaultLine_eq hadded, trimSpace_assignment _ (by have := normalize_bounds added []; omega),
      keyOf_opening] at hkey
    obtain rfl := Option.some.inj hkey
    exact ⟨[], defaultLine_eq hadded⟩

theorem keyOf_defaultLine (hkey : key = .minLimit ∨ key = .observeSeconds) :
    keyOf (trimSpace (defaultLine key)) = some key := by
  have hpos := (normalize_bounds key []).1
  rw [defaultLine_eq hkey, trimSpace_assignment key (by omega), keyOf_opening]

/-- The two settings that have to be there are. -/
theorem not_missing (ls : List (List Char)) (hkey : key = .minLimit ∨ key = .observeSeconds) :
    ∃ line ∈ normalizedLines ls, keyOf (trimSpace line) = some key := by
  by_cases hmissing : Missing ls key
  · exact ⟨_, List.mem_append_right _ (mem_addedLines.mpr ⟨key, hkey, hmissing, rfl⟩),
      keyOf_defaultLine hkey⟩
  · unfold Missing at hmissing
    push Not at hmissing
    obtain ⟨line, hline, hline'⟩ := hmissing
    exact ⟨_, List.mem_append_left _ (List.mem_map_of_mem hline),
      (keyOf_normalizeLine line).trans hline'⟩

theorem normalizedLines_idempotent (ls : List (List Char)) :
    normalizedLines (normalizedLines ls) = normalizedLines ls := by
  have hadded : addedLines (normalizedLines ls) = [] := by
    refine List.eq_nil_iff_forall_not_mem.mpr fun line hline => ?_
    obtain ⟨key, hkey, hmissing, -⟩ := mem_addedLines.mp hline
    obtain ⟨l, hl, hl'⟩ := not_missing ls hkey
    exact hmissing l hl hl'
  have hmap : (normalizedLines ls).map normalizeLine = normalizedLines ls := by
    conv_rhs => rw [← List.map_id (normalizedLines ls)]
    refine List.map_congr_left fun line hline => ?_
    cases hkey : keyOf (trimSpace line) with
    | none => exact normalizeLine_of_none hkey
    | some key =>
        obtain ⟨value, rfl⟩ := assignment_of_mem hline hkey
        exact normalizeLine_assignment key value
  rw [normalizedLines, hmap, hadded, List.append_nil]

/-- The lines of no setting are kept, in their order. -/
theorem filter_normalizedLines (ls : List (List Char)) :
    (normalizedLines ls).filter (fun line => keyOf (trimSpace line) = none) =
      ls.filter fun line => keyOf (trimSpace line) = none := by
  have hadded : (addedLines ls).filter (fun line => keyOf (trimSpace line) = none) = [] := by
    refine List.filter_eq_nil_iff.mpr fun line hline => ?_
    obtain ⟨key, hkey, -, rfl⟩ := mem_addedLines.mp hline
    simp [keyOf_defaultLine hkey]
  have hmap : (ls.map normalizeLine).filter (fun line => keyOf (trimSpace line) = none) =
      ls.filter fun line => keyOf (trimSpace line) = none := by
    rw [List.filter_map]
    simp only [Function.comp_def, keyOf_normalizeLine]
    conv_rhs => rw [← List.map_id (ls.filter fun line => keyOf (trimSpace line) = none)]
    refine List.map_congr_left fun line hline => ?_
    exact normalizeLine_of_none (by simpa using (List.mem_filter.mp hline).2)
  rw [normalizedLines, List.filter_append, hmap, hadded, List.append_nil]

/-- An assignment ends with a digit, and has no line feed. -/
theorem assignment_chars (key : PpsKey) (hn : 0 ≤ n) :
    '\n' ∉ key.opening ++ itoa n ∧ (key.opening ++ itoa n).getLast? ≠ some '\r' ∧
      key.opening ++ itoa n ≠ [] := by
  have hne := itoa_ne_nil hn
  refine ⟨fun hmem => ?_, fun hlast => ?_, fun h => hne (List.append_eq_nil_iff.mp h).2⟩
  · rcases List.mem_append.mp hmem with hmem | hmem
    · cases key <;> revert hmem <;> decide
    · cases isDigit_itoa hn _ hmem
  · rw [List.getLast?_append_of_ne_nil _ hne, List.getLast?_eq_getLast_of_ne_nil hne] at hlast
    have hdigit := isDigit_itoa hn _ (List.getLast_mem hne)
    rw [Option.some.inj hlast] at hdigit
    cases hdigit

/-- A property of the other lines and of all assignments is one of all written lines. -/
theorem forall_mem_normalizedLines {P : List Char → Prop}
    (hassign : ∀ (key : PpsKey) (value : List Char),
      P (key.opening ++ itoa (key.normalize value)))
    (hother : ∀ line ∈ ls, keyOf (trimSpace line) = none → P line) :
    ∀ line ∈ normalizedLines ls, P line := by
  intro line hline
  cases hkey : keyOf (trimSpace line) with
  | none =>
      have hmem : line ∈ ls.filter fun line => keyOf (trimSpace line) = none := by
        rw [← filter_normalizedLines]
        exact List.mem_filter.mpr ⟨hline, by simpa using hkey⟩
      exact hother line (List.mem_filter.mp hmem).1 hkey
  | some key =>
      obtain ⟨value, rfl⟩ := assignment_of_mem hline hkey
      exact hassign key value

theorem feed_not_mem_normalizedLines (content : List Char) :
    ∀ line ∈ normalizedLines (configLines content), '\n' ∉ line :=
  forall_mem_normalizedLines
    (fun key value => (assignment_chars key (by have := normalize_bounds key value; omega)).1)
    fun _ hline _ => feed_not_mem_configLines hline

/-- The last written line is not empty. -/
theorem getLast?_normalizedLines (content : List Char) :
    (normalizedLines (configLines content)).getLast? ≠ some [] := by
  intro hlast
  obtain ⟨before, hsplit⟩ := List.getLast?_eq_some_iff.mp hlast
  have hnone : keyOf (trimSpace []) = none := by decide
  by_cases hadded : addedLines (configLines content) = []
  · rw [normalizedLines, hadded, List.append_nil, List.getLast?_map] at hlast
    obtain ⟨line, hline, hempty⟩ := Option.map_eq_some_iff.mp hlast
    have hkey : keyOf (trimSpace line) = none := by
      rw [← keyOf_normalizeLine, hempty, hnone]
    rw [normalizeLine_of_none hkey] at hempty
    rw [hempty, configLines_eq] at hline
    exact TextLines.getLast?_lines content hline
  · rw [normalizedLines, List.getLast?_append_of_ne_nil _ hadded] at hlast
    obtain ⟨key, hkey, -, hempty⟩ := mem_addedLines.mp (List.mem_of_getLast? hlast)
    have hfound := keyOf_defaultLine hkey
    rw [hempty, hnone] at hfound
    cases hfound

/-- A carriage return at the end is trimmed off. -/
theorem trimSpace_dropCr (line : List Char) :
    trimSpace (TextLines.dropCr line) = trimSpace line := by
  rcases TextLines.dropCr_spec line with h | h
  · rw [← h]
  · conv_rhs => rw [h]
    exact (Trim.trimBy_concat (by decide)).symm

/-- The lines of no setting, when the written text is read again. -/
theorem filter_reread (content : List Char) :
    ((configLines (normalizeConfig content)).filter
      fun line => keyOf (trimSpace line) = none).Sublist
      (((configLines content).filter fun line => keyOf (trimSpace line) = none).map
        TextLines.dropCr) := by
  have hmap : ((normalizedLines (configLines content)).map TextLines.dropCr).filter
      (fun line => keyOf (trimSpace line) = none) =
        ((configLines content).filter fun line => keyOf (trimSpace line) = none).map
          TextLines.dropCr := by
    rw [List.filter_map, ← filter_normalizedLines]
    simp only [Function.comp_def, trimSpace_dropCr]
  rw [normalizeConfig_eq, configLines_eq,
    TextLines.lines_unlines (feed_not_mem_normalizedLines content), ← hmap]
  exact (List.rdropWhile_prefix _ _).sublist.filter _

theorem outputLines_normalizeConfig (content : List Char) :
    outputLines (normalizeConfig content) = normalizedLines (configLines content) := by
  rw [outputLines, normalizeConfig_eq,
    TextLines.splitOn_unlines (feed_not_mem_normalizedLines content), List.dropLast_concat]

/-- Every other line ends with something else than a carriage return. -/
def EndsClean (content : List Char) : Prop :=
  ∀ line ∈ configLines content, keyOf (trimSpace line) = none → line.getLast? ≠ some '\r'

theorem idempotent_of_endsClean (h : EndsClean content) :
    normalizeConfig (normalizeConfig content) = normalizeConfig content := by
  have hclean : ∀ line ∈ normalizedLines (configLines content), line.getLast? ≠ some '\r' :=
    forall_mem_normalizedLines
      (fun key value => (assignment_chars key (by have := normalize_bounds key value; omega)).2.1) h
  have hreread : configLines (normalizeConfig content) = normalizedLines (configLines content) := by
    rw [normalizeConfig_eq, configLines_eq]
    exact TextLines.lines_unlines_self (feed_not_mem_normalizedLines content) hclean
      (getLast?_normalizedLines content)
  rw [normalizeConfig_eq (normalizeConfig content), hreread, normalizedLines_idempotent,
    ← normalizeConfig_eq]

/-- A second application that changes nothing has dropped no carriage return. -/
theorem endsClean_of_idempotent
    (h : normalizeConfig (normalizeConfig content) = normalizeConfig content) :
    EndsClean content := by
  have hlines : normalizedLines (configLines (normalizeConfig content)) =
      normalizedLines (configLines content) := by
    refine TextLines.unlines_inj (feed_not_mem_normalizedLines _)
      (feed_not_mem_normalizedLines _) ?_
    rw [← normalizeConfig_eq, ← normalizeConfig_eq, h]
  have hsub := filter_reread content
  rw [← filter_normalizedLines, hlines, filter_normalizedLines] at hsub
  -- the same number of lines, so the lines themselves
  have hsame := hsub.eq_of_length (by rw [List.length_map])
  intro line hline hkey hlast
  have hmem : line ∈ (configLines content).filter fun line => keyOf (trimSpace line) = none :=
    List.mem_filter.mpr ⟨hline, by simpa using hkey⟩
  have hfixed : TextLines.dropCr line = line := by
    have hboth := (List.map_id _).trans hsame
    exact ((List.map_inj_left.mp hboth) line hmem).symm
  rw [TextLines.dropCr, if_pos hlast] at hfixed
  have hne : line ≠ [] := fun hnil => by simp [hnil] at hlast
  have hlength := congrArg List.length hfixed
  rw [List.length_dropLast] at hlength
  have := List.length_pos_of_ne_nil hne
  omega

end Lines

/-- For every text. -/
theorem pps_config_normalized_iff (content : List Char) :
    ConfigNormalized content ↔ EndsClean content := by
  refine ⟨fun h => endsClean_of_idempotent h.idempotent, fun h => ?_⟩
  refine ⟨idempotent_of_endsClean h, ?_, ?_, ?_, ?_, ?_, ?_⟩ <;> rw [outputLines_normalizeConfig]
  · intro line hline key hkey hlimit
    obtain ⟨value, hvalue⟩ := assignment_of_mem hline hkey
    have hbounds := limitOf_bounds (atoi value)
    rcases hlimit with rfl | rfl
    · exact ⟨_, hvalue, hbounds⟩
    · exact ⟨_, hvalue, hbounds⟩
  · obtain ⟨line, hline, hkey⟩ := not_missing (configLines content) (.inl rfl)
    obtain ⟨value, hvalue⟩ := assignment_of_mem hline hkey
    exact ⟨line, hline, hvalue⟩
  · intro line hline hkey
    obtain ⟨value, hvalue⟩ := assignment_of_mem hline hkey
    exact hvalue
  · obtain ⟨line, hline, hkey⟩ := not_missing (configLines content) (.inr rfl)
    obtain ⟨value, hvalue⟩ := assignment_of_mem hline hkey
    exact ⟨line, hline, _, hvalue, observeSecondsOf_pos _⟩
  · intro line hline hkey
    obtain ⟨value, hvalue⟩ := assignment_of_mem hline hkey
    exact ⟨_, hvalue, observeSecondsOf_pos _⟩
  · exact filter_normalizedLines _

/-- Two carriage returns before a line feed: the first application leaves one of them. -/
theorem carriage_return_rewritten :
    normalizeConfig (normalizeConfig "BRIDGE_NAME=incusbr0\r\r\n".toList) ≠
      normalizeConfig "BRIDGE_NAME=incusbr0\r\r\n".toList := by
  decide +kernel

end Incudal
