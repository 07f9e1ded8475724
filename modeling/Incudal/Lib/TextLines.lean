/-
# `Lib.TextLines` — the lines of a text

A text is cut at its line feeds, after `\r\n` has become `\n` and the line feeds at
its end are gone; written again, every line gets its line feed.

What is read of written lines is the lines, each without one carriage return at its
end, and without the empty lines at the end (`lines_unlines`).  So a text of lines
that end with no carriage return, the last of them not empty, is read as it was
written (`lines_unlines_self`), and any other is not.
-/
import Mathlib

namespace TextLines

/-- `\r\n` becomes `\n`, from left to right. -/
def crlf : List Char → List Char
  | '\r' :: '\n' :: text => '\n' :: crlf text
  | c :: text => c :: crlf text
  | [] => []

/-- Without the line feeds at its end. -/
def trimEnd (text : List Char) : List Char := text.rdropWhile (· == '\n')

/-- The lines of a text; an empty text has none. -/
def split (text : List Char) : List (List Char) := if text = [] then [] else text.splitOn '\n'

def lines (text : List Char) : List (List Char) := split (trimEnd (crlf text))

def unlines (ls : List (List Char)) : List Char := ls.flatMap (· ++ ['\n'])

/-- A line without a carriage return at its end. -/
def dropCr (line : List Char) : List Char :=
  if line.getLast? = some '\r' then line.dropLast else line

variable {line rest text : List Char} {ls ls' : List (List Char)} {c : Char}

@[simp] theorem unlines_nil : unlines [] = [] := rfl

theorem unlines_cons : unlines (line :: ls) = line ++ '\n' :: unlines ls := by
  simp [unlines]

theorem unlines_concat : unlines (ls ++ [line]) = unlines ls ++ (line ++ ['\n']) := by
  simp [unlines]

/-- A text with a line feed at its end, from the lines as `Join` has them. -/
theorem unlines_eq_intercalate (hne : ls ≠ []) : unlines ls = ['\n'].intercalate ls ++ ['\n'] := by
  induction ls with
  | nil => exact absurd rfl hne
  | cons line ls ih =>
      cases ls with
      | nil => simp [unlines_cons]
      | cons next ls =>
          rw [unlines_cons, ih (List.cons_ne_nil _ _), List.intercalate_cons_cons]
          simp

/-! ## Carriage returns -/

theorem crlf_cons (h : ¬(c = '\r' ∧ rest.head? = some '\n')) :
    crlf (c :: rest) = c :: crlf rest := by
  rw [crlf]
  rintro text rfl rfl
  exact h ⟨rfl, rfl⟩

theorem dropCr_cons (hne : line ≠ []) : dropCr (c :: line) = c :: dropCr line := by
  obtain ⟨d, line, rfl⟩ := List.exists_cons_of_ne_nil hne
  unfold dropCr
  simp only [List.getLast?_cons_cons]
  split <;> rfl

theorem crlf_line (h : '\n' ∉ line) :
    crlf (line ++ '\n' :: rest) = dropCr line ++ '\n' :: crlf rest := by
  induction line with
  | nil => exact crlf_cons (by simp)
  | cons c line ih =>
      have hline : '\n' ∉ line := fun hmem => h (List.mem_cons_of_mem _ hmem)
      by_cases hne : line = []
      · subst hne
        by_cases hc : c = '\r'
        · subst hc
          rfl
        · have hdrop : dropCr [c] = [c] := by simp [dropCr, hc]
          rw [hdrop]
          show crlf (c :: '\n' :: rest) = c :: '\n' :: crlf rest
          rw [crlf_cons fun hr => hc hr.1, crlf_cons (by simp)]
      · obtain ⟨d, line', hd⟩ := List.exists_cons_of_ne_nil hne
        have hfeed : d ≠ '\n' := fun heq => hline (by simp [hd, heq])
        rw [dropCr_cons hne, List.cons_append, List.cons_append, ← ih hline]
        exact crlf_cons fun hr => hfeed (by simpa [hd] using hr.2)

theorem crlf_unlines (h : ∀ line ∈ ls, '\n' ∉ line) :
    crlf (unlines ls) = unlines (ls.map dropCr) := by
  induction ls with
  | nil => rfl
  | cons line ls ih =>
      obtain ⟨hline, hrest⟩ := List.forall_mem_cons.mp h
      rw [unlines_cons, crlf_line hline, ih hrest, List.map_cons, unlines_cons]

theorem feed_not_mem_dropCr (h : '\n' ∉ line) : '\n' ∉ dropCr line := by
  unfold dropCr
  split
  · exact fun hmem => h (List.dropLast_subset _ hmem)
  · exact h

theorem dropCr_eq_self (h : line.getLast? ≠ some '\r') : dropCr line = line := if_neg h

/-- A carriage return at the end, or nothing, is what has been dropped. -/
theorem dropCr_spec (line : List Char) : line = dropCr line ∨ line = dropCr line ++ ['\r'] := by
  unfold dropCr
  split
  · rename_i h
    exact .inr (List.dropLast_append_getLast? '\r' h).symm
  · exact .inl rfl

/-! ## Line feeds -/

theorem not_mem_of_mem_splitOn (h : line ∈ text.splitOn '\n') : '\n' ∉ line := by
  induction text generalizing line with
  | nil =>
      simp only [List.splitOn_nil, List.mem_singleton] at h
      simp [h]
  | cons c text ih =>
      rw [List.splitOn_cons_eq_if_modifyHead] at h
      split at h
      · rcases List.mem_cons.mp h with rfl | h
        · exact List.not_mem_nil
        · exact ih h
      · rename_i hc
        obtain ⟨first, others, hsplit⟩ := List.exists_cons_of_ne_nil (List.splitOn_ne_nil '\n' text)
        rw [hsplit, List.modifyHead_cons] at h
        rcases List.mem_cons.mp h with rfl | h
        · have hfirst : '\n' ∉ first := ih (by rw [hsplit]; exact List.mem_cons_self)
          intro hmem
          rcases List.mem_cons.mp hmem with rfl | hmem
          · simp at hc
          · exact hfirst hmem
        · exact ih (by rw [hsplit]; exact List.mem_cons_of_mem _ h)

theorem feed_not_mem_lines (h : line ∈ lines text) : '\n' ∉ line := by
  unfold lines split at h
  split at h
  · cases h
  · exact not_mem_of_mem_splitOn h

/-- The last line that was read is not empty. -/
theorem getLast?_lines (text : List Char) : (lines text).getLast? ≠ some [] := by
  unfold lines
  generalize ht : trimEnd (crlf text) = t
  unfold split
  split
  · simp
  · rename_i hne
    intro hlast
    obtain ⟨before, hsplit⟩ := List.getLast?_eq_some_iff.mp hlast
    have hjoin : ['\n'].intercalate (t.splitOn '\n') = t := List.intercalate_splitOn '\n'
    have hend : t.rdropWhile (· == '\n') = t := by
      rw [← ht]
      exact List.rdropWhile_idempotent _ _
    rw [hsplit] at hjoin
    cases before with
    | nil => exact hne (by simpa using hjoin.symm)
    | cons first before =>
        have hunlines :
            ['\n'].intercalate (first :: before ++ [[]]) = unlines (first :: before) := by
          have hconcat : unlines (first :: before ++ [[]]) = _ ++ ['\n'] :=
            unlines_eq_intercalate (by simp)
          rw [unlines_concat, List.nil_append] at hconcat
          exact (List.append_cancel_right hconcat).symm
        rw [hunlines, unlines_eq_intercalate (List.cons_ne_nil _ _)] at hjoin
        have hnot := List.rdropWhile_eq_self_iff.mp hend hne
        subst hjoin
        simp at hnot

/-- Written lines, without the line feeds at the end: the empty lines there are gone. -/
theorem split_trimEnd_unlines (h : ∀ line ∈ ls, '\n' ∉ line) :
    split (trimEnd (unlines ls)) = ls.rdropWhile List.isEmpty := by
  induction ls using List.reverseRecOn with
  | nil => rfl
  | append_singleton ls line ih =>
      have hls : ∀ line ∈ ls, '\n' ∉ line := fun l hl => h l (List.mem_append_left _ hl)
      have hline : '\n' ∉ line := h line (List.mem_append_right _ List.mem_cons_self)
      have hfeed : trimEnd (unlines (ls ++ [line])) = trimEnd (unlines ls ++ line) := by
        rw [unlines_concat, ← List.append_assoc, trimEnd, List.rdropWhile_concat_pos _ _ _ rfl]
        rfl
      by_cases hempty : line = []
      · subst hempty
        rw [hfeed, List.append_nil, ih hls, List.rdropWhile_concat_pos _ _ _ rfl]
      · have hkept : trimEnd (unlines ls ++ line) = unlines ls ++ line := by
          refine List.rdropWhile_eq_self_iff.mpr fun hne => ?_
          rw [List.getLast_append_of_ne_nil hne hempty]
          intro heq
          have hlast : line.getLast hempty = '\n' := by simpa using heq
          exact hline (hlast ▸ List.getLast_mem hempty)
        have hjoin : unlines ls ++ line = ['\n'].intercalate (ls ++ [line]) := by
          have hconcat : unlines (ls ++ [line]) = _ ++ ['\n'] := unlines_eq_intercalate (by simp)
          rw [unlines_concat, ← List.append_assoc] at hconcat
          exact List.append_cancel_right hconcat
        have hne : unlines ls ++ line ≠ [] := by simp [hempty]
        rw [hfeed, hkept, split, if_neg hne, hjoin, List.splitOn_intercalate '\n' h (by simp),
          List.rdropWhile_concat_neg _ _ _ (by simpa using hempty)]

/-- What is read of written lines. -/
theorem lines_unlines (h : ∀ line ∈ ls, '\n' ∉ line) :
    lines (unlines ls) = (ls.map dropCr).rdropWhile List.isEmpty := by
  rw [lines, crlf_unlines h]
  refine split_trimEnd_unlines fun line hline => ?_
  obtain ⟨l, hl, rfl⟩ := List.mem_map.mp hline
  exact feed_not_mem_dropCr (h l hl)

/-- Lines without carriage returns at their ends are read as they were written. -/
theorem lines_unlines_self (h : ∀ line ∈ ls, '\n' ∉ line)
    (hcr : ∀ line ∈ ls, line.getLast? ≠ some '\r') (hlast : ls.getLast? ≠ some []) :
    lines (unlines ls) = ls := by
  have hmap : ls.map dropCr = ls := by
    conv_rhs => rw [← List.map_id ls]
    exact List.map_congr_left fun line hline => dropCr_eq_self (hcr line hline)
  rw [lines_unlines h, hmap]
  refine List.rdropWhile_eq_self_iff.mpr fun hne hempty => hlast ?_
  rw [List.getLast?_eq_getLast_of_ne_nil hne]
  exact congrArg some (List.isEmpty_iff.mp hempty)

/-- Written lines, cut at the line feeds. -/
theorem splitOn_unlines (h : ∀ line ∈ ls, '\n' ∉ line) :
    (unlines ls).splitOn '\n' = ls ++ [[]] := by
  have hconcat : unlines (ls ++ [[]]) = _ ++ ['\n'] := unlines_eq_intercalate (by simp)
  rw [unlines_concat, List.nil_append] at hconcat
  rw [List.append_cancel_right hconcat]
  refine List.splitOn_intercalate '\n' (fun line hline => ?_) (by simp)
  rcases List.mem_append.mp hline with hline | hline
  · exact h line hline
  · simp [List.mem_singleton.mp hline]

/-- Written lines determine the lines. -/
theorem unlines_inj (h : ∀ line ∈ ls, '\n' ∉ line) (h' : ∀ line ∈ ls', '\n' ∉ line)
    (heq : unlines ls = unlines ls') : ls = ls' := by
  have hsplit := splitOn_unlines h
  rw [heq, splitOn_unlines h'] at hsplit
  exact (List.append_cancel_right hsplit).symm

end TextLines
