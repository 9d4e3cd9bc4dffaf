import Provisioner.Proofs.Text.Cut
import Provisioner.Text.Lines

/-!
# The lines of a text, one after the other

A text may be cut behind any line feed without a change to its lines (`lines_append`), so lines that
were put into a text each with its feed (`unlines`) are read one after the other.

A line is a piece between two line feeds, perhaps without its last character
(`exists_mem_splitOn_of_mem_lines`).
-/

namespace Provisioner.Text

/-- The text of some lines, each with a line feed. -/
def unlines (lines : List String) : String := String.join (lines.map (· ++ "\n"))

theorem unlines_cons (line : String) (lines : List String) :
    unlines (line :: lines) = line ++ "\n" ++ unlines lines := by
  simp [unlines]

theorem unlines_append (a b : List String) : unlines (a ++ b) = unlines a ++ unlines b := by
  simp [unlines]

theorem toList_unlines_cons (line : String) (lines : List String) :
    (unlines (line :: lines)).toList = line.toList ++ '\n' :: (unlines lines).toList := by
  simp [unlines_cons]

/-- Whether a text consists of whole lines, so that another line begins behind it. -/
def EndsLine (text : List Char) : Prop := text = [] ∨ ∃ front, text = front ++ ['\n']

theorem EndsLine.of_suffix {text rest : List Char} (h : EndsLine text) (hrest : rest <:+ text) :
    EndsLine rest := by
  rcases List.eq_nil_or_concat rest with rfl | ⟨front, c, rfl⟩
  · exact .inl rfl
  · rw [List.concat_eq_append] at hrest ⊢
    rcases h with rfl | ⟨whole, rfl⟩
    · simp at hrest
    · obtain ⟨before, hbefore⟩ := hrest
      rw [← List.append_assoc] at hbefore
      obtain ⟨-, hc⟩ := List.append_inj' hbefore rfl
      exact .inr ⟨front, by rw [hc]⟩

theorem endsLine_unlines (lines : List String) : EndsLine (unlines lines).toList := by
  rcases List.eq_nil_or_concat lines with rfl | ⟨front, last, rfl⟩
  · exact .inl rfl
  · exact .inr ⟨(unlines front).toList ++ last.toList, by simp [unlines]⟩

/-! ## The first line and those behind it -/

theorem reverse_dropReturn (line : List Char) :
    (dropReturn line).reverse = withoutFinal '\r' line.reverse := by
  cases line with
  | nil => rfl
  | cons c line =>
    rw [List.reverse_cons]
    by_cases h : c = '\r'
    · subst h
      rw [withoutFinal_concat]
      rfl
    · rw [withoutFinal_concat_of_ne h, dropReturn.eq_2 _ (by simpa using h), List.reverse_cons]

/-- A cut behind a line feed cuts no line. -/
theorem linesFrom_append_feed (pending text rest : List Char) :
    linesFrom pending [] (text ++ '\n' :: rest) =
      linesFrom pending [] (text ++ ['\n']) ++ lines rest := by
  induction text generalizing pending with
  | nil =>
    rw [List.nil_append, List.nil_append, linesFrom, if_pos rfl, linesFrom, if_pos rfl,
      linesFrom_eq_append]
    rfl
  | cons c text ih =>
    rw [List.cons_append, List.cons_append, linesFrom, linesFrom]
    split
    · rw [linesFrom_eq_append, ih, linesFrom_eq_append [] [_] (text ++ ['\n']), List.append_assoc]
    · exact ih (c :: pending)

theorem lines_append {text : List Char} (h : EndsLine text) (rest : List Char) :
    lines (text ++ rest) = lines text ++ lines rest := by
  rcases h with rfl | ⟨front, rfl⟩
  · rfl
  · rw [List.append_assoc, List.singleton_append]
    exact linesFrom_append_feed [] front rest

/--
The lines of a text are the pieces between its line feeds, those in front of a line feed without the
return at their end, and the last one only if it is not empty.
-/
theorem linesFrom_eq_splitOn {pending : List Char} (h : '\n' ∉ pending) (text : List Char) :
    ∃ front last, (pending.reverse ++ text).splitOn '\n' = front ++ [last] ∧
      linesFrom pending [] text =
        front.map (withoutFinal '\r') ++ if last = [] then [] else [last] := by
  induction text generalizing pending with
  | nil =>
    refine ⟨[], pending.reverse, ?_, ?_⟩
    · rw [List.append_nil, List.nil_append]
      exact List.splitOn_eq_singleton (by rwa [List.mem_reverse])
    · cases pending <;> simp [linesFrom]
  | cons c text ih =>
    by_cases hc : c = '\n'
    · subst hc
      obtain ⟨front, last, hpieces, hlines⟩ := ih List.not_mem_nil
      refine ⟨pending.reverse :: front, last, ?_, ?_⟩
      · rw [List.splitOn_append_cons_self_of_not_mem (by rwa [List.mem_reverse]),
          List.cons_append, ← hpieces]
        rfl
      · rw [linesFrom, if_pos rfl, linesFrom_eq_append, hlines, reverse_dropReturn]
        rfl
    · have hpending : '\n' ∉ c :: pending := by
        rw [List.mem_cons, not_or]
        exact ⟨Ne.symm hc, h⟩
      have hnext := ih hpending
      rw [List.reverse_cons, List.append_assoc, List.singleton_append] at hnext
      rwa [linesFrom, if_neg hc]

theorem lines_eq_splitOn (text : List Char) :
    ∃ front last, text.splitOn '\n' = front ++ [last] ∧
      lines text = front.map (withoutFinal '\r') ++ if last = [] then [] else [last] :=
  linesFrom_eq_splitOn List.not_mem_nil text

theorem lines_feed {line : List Char} (h : '\n' ∉ line) :
    lines (line ++ ['\n']) = [withoutFinal '\r' line] := by
  obtain ⟨front, last, hpieces, hlines⟩ := lines_eq_splitOn (line ++ ['\n'])
  rw [List.splitOn_append_cons_self_of_not_mem h] at hpieces
  obtain ⟨rfl, hlast⟩ : [line] = front ∧ [[]] = [last] := List.append_inj' hpieces rfl
  obtain rfl : [] = last := List.singleton_inj.mp hlast
  exact hlines

theorem lines_of_not_mem {line : List Char} (h : '\n' ∉ line) (hne : line ≠ []) :
    lines line = [line] := by
  obtain ⟨front, last, hpieces, hlines⟩ := lines_eq_splitOn line
  rw [List.splitOn_eq_singleton h] at hpieces
  obtain ⟨rfl, hlast⟩ : [] = front ∧ [line] = [last] := List.append_inj' hpieces rfl
  obtain rfl : line = last := List.singleton_inj.mp hlast
  rw [hlines, if_neg hne]
  rfl

/-! ## Where a line stands -/

theorem exists_mem_splitOn_of_mem_lines {line text : List Char} (h : line ∈ lines text) :
    ∃ piece ∈ text.splitOn '\n', line <+: piece := by
  obtain ⟨front, last, hpieces, hlines⟩ := lines_eq_splitOn text
  rw [hlines, List.mem_append, List.mem_map] at h
  rw [hpieces]
  rcases h with ⟨piece, hpiece, rfl⟩ | hlast
  · exact ⟨piece, List.mem_append_left _ hpiece, withoutFinal_isPrefix '\r' piece⟩
  · refine ⟨last, List.mem_append_right _ (List.mem_singleton_self last), ?_⟩
    split at hlast
    · exact absurd hlast List.not_mem_nil
    · exact List.mem_singleton.mp hlast ▸ List.prefix_rfl

/-- A line holds no line feed. -/
theorem not_mem_of_mem_lines {line text : List Char} (h : line ∈ lines text) : '\n' ∉ line := by
  obtain ⟨piece, hpiece, hline⟩ := exists_mem_splitOn_of_mem_lines h
  exact fun hfeed => (of_mem_splitOn hpiece).1 (hline.subset hfeed)

end Provisioner.Text
