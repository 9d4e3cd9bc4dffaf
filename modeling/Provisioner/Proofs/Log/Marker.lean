import Provisioner.Log.Marker
import Provisioner.Proofs.Text.Lines
import Provisioner.Proofs.Text.Search

/-!
# Extraction undoes printing

A value is found behind the first occurrence of its marker, in the first line that has one
(`extract_of_line`). A return at the end of that line, which goes with the line's end, is a blank
and would be trimmed all the same, so it makes no difference that only lines with a line feed lose
it. Blanks and then quotes are trimmed, and nothing of a value goes with them that has neither at
its ends.
-/

namespace Provisioner

/-! ## Trimming -/

namespace Text

variable {p : Char → Bool}

/-- Nothing at the ends of a text would be trimmed. -/
def Trimmed (p : Char → Bool) (text : List Char) : Prop :=
  ∀ c, c ∈ text.head? ∨ c ∈ text.getLast? → p c = false

instance (p : Char → Bool) (text : List Char) : Decidable (Trimmed p text) :=
  decidable_of_iff (text.head?.all (!p ·) = true ∧ text.getLast?.all (!p ·) = true) <| by
    simp only [Trimmed, Option.all_eq_true, Option.mem_def, Bool.not_eq_true', or_imp, forall_and]

theorem Trimmed.wrap {a text b : List Char} (h : Trimmed p text) (ha : ∀ c ∈ a, p c = false)
    (hb : ∀ c ∈ b, p c = false) : Trimmed p (a ++ (text ++ b)) := by
  intro c hc
  simp only [List.head?_append, List.getLast?_append, Option.mem_def, Option.or_eq_some_iff] at hc
  rcases hc with (hc | ⟨-, hc | ⟨-, hc⟩⟩) | ((hc | ⟨-, hc⟩) | ⟨-, hc⟩)
  · exact ha c (List.mem_of_mem_head? hc)
  · exact h c (.inl hc)
  · exact hb c (List.mem_of_mem_head? hc)
  · exact hb c (List.mem_of_mem_getLast? hc)
  · exact h c (.inr hc)
  · exact ha c (List.mem_of_mem_getLast? hc)

theorem dropWhile_append_of_head? {text b : List Char} (hb : ∀ c ∈ b, p c = true)
    (hfirst : ∀ c ∈ text.head?, p c = false) :
    (text ++ b).dropWhile p = text ++ (if text = [] then [] else b) := by
  cases text with
  | nil =>
    have hdrop : (b ++ []).dropWhile p = [] := List.dropWhile_append_of_pos hb
    simpa using hdrop
  | cons c text =>
    rw [List.cons_append, List.dropWhile_cons_of_neg (by simp [hfirst c rfl]), if_neg (by simp),
      List.cons_append]

/-- What is trimmed goes, up to the first and the last character that stay. -/
theorem trimBy_append {a text b : List Char} (ha : ∀ c ∈ a, p c = true) (h : Trimmed p text)
    (hb : ∀ c ∈ b, p c = true) : trimBy p (a ++ (text ++ b)) = text := by
  rw [trimBy, List.dropWhile_append_of_pos ha,
    dropWhile_append_of_head? hb fun c hc => h c (.inl hc)]
  split
  · next htext =>
    subst htext
    rfl
  · have hback : text.reverse.dropWhile p = text.reverse := by
      have hfirst : ∀ c ∈ text.reverse.head?, p c = false := by
        rw [List.head?_reverse]
        exact fun c hc => h c (.inr hc)
      have hdrop := dropWhile_append_of_head? (b := []) (List.forall_mem_nil _) hfirst
      rwa [List.append_nil, ite_self, List.append_nil] at hdrop
    rw [List.reverse_append,
      List.dropWhile_append_of_pos (fun c hc => hb c (List.mem_reverse.mp hc)), hback,
      List.reverse_reverse]

theorem trimBy_concat {c : Char} (hc : p c = true) (text : List Char) :
    trimBy p (text ++ [c]) = trimBy p text := by
  rw [trimBy, trimBy, List.dropWhile_append]
  split
  · next h =>
    rw [List.isEmpty_iff.mp h, List.dropWhile_cons_of_pos hc]
    rfl
  · rw [List.reverse_append, List.reverse_singleton, List.singleton_append,
      List.dropWhile_cons_of_pos hc]

end Text

namespace Marker

open Text

/-- What is looked for: a marker and the sign behind it. -/
def piece (marker : String) : List Char := marker.toList ++ ['=']

theorem piece_ne_nil (marker : String) : piece marker ≠ [] := by
  simp [piece]

theorem not_isBlank_of_isQuote {c : Char} (h : isQuote c = true) : isBlank c = false := by
  rcases Bool.or_eq_true_iff.mp h with h | h
  · rw [eq_of_beq h]
    decide
  · rw [eq_of_beq h]
    decide

/-! ## The value in the rest of a line -/

theorem unwrap_withoutFinal (rest : List Char) : unwrap (withoutFinal '\r' rest) = unwrap rest := by
  rcases withoutFinal_cases '\r' rest with h | h
  · conv => rhs; rw [h]
    rw [unwrap, unwrap, trim, trim, trimBy_concat (by decide)]
  · rw [← h]

/-- A return at the end of a line is behind the marker. -/
theorem after?_withoutFinal {marker : String} {line rest : List Char}
    (h : after? (piece marker) line = some rest) :
    after? (piece marker) (withoutFinal '\r' line) = some (withoutFinal '\r' rest) := by
  obtain ⟨front, rfl, hfirst⟩ := after?_eq_some_iff.mp h
  refine after?_eq_some_iff.mpr ⟨front, ?_, hfirst⟩
  rw [piece, List.append_assoc, List.append_assoc, List.singleton_append, List.singleton_append,
    ← List.append_assoc, withoutFinal_append_cons_of_ne (by decide), List.append_assoc]

/-! ## The line that counts -/

theorem extract_eq (marker output : String) :
    extract marker output = ((lines output.toList).findSome? (after? (piece marker))).elim ""
      fun rest => String.ofList (unwrap rest) := by
  simp only [extract, piece]
  cases (lines output.toList).findSome? (after? (marker.toList ++ ['='])) <;> rfl

theorem findSome?_lines_eq_none {q text : List Char}
    (h : ∀ line ∈ text.splitOn '\n', ¬q <:+: line) :
    (lines text).findSome? (after? q) = none := by
  rw [List.findSome?_eq_none_iff]
  intro line hline
  obtain ⟨whole, hwhole, hprefix⟩ := exists_mem_splitOn_of_mem_lines hline
  exact after?_eq_none_iff.mpr fun hoccurs => h whole hwhole (hoccurs.trans hprefix.isInfix)

/-- Text of whole lines without the marker is passed over, and text behind the line is not read. -/
theorem extract_of_line {marker : String} {before line behind rest : List Char}
    (hbefore : EndsLine before) (hfree : ¬piece marker <:+: before) (hline : '\n' ∉ line)
    (hafter : after? (piece marker) line = some rest)
    (hbehind : behind = [] ∨ ∃ more, behind = '\n' :: more) :
    extract marker (String.ofList (before ++ (line ++ behind))) = String.ofList (unwrap rest) := by
  have hskip : (lines before).findSome? (after? (piece marker)) = none :=
    findSome?_lines_eq_none fun line hmem hoccurs =>
      hfree (hoccurs.trans (of_mem_splitOn hmem).2)
  rcases hbehind with rfl | ⟨more, rfl⟩
  · have hne : line ≠ [] := by
      rintro rfl
      obtain ⟨front, hnil, -⟩ := after?_eq_some_iff.mp hafter
      simp [piece] at hnil
    rw [extract_eq, String.toList_ofList, lines_append hbefore, List.findSome?_append, hskip,
      List.append_nil, lines_of_not_mem hline hne, List.findSome?_singleton, hafter]
    rfl
  · rw [← unwrap_withoutFinal, extract_eq, String.toList_ofList, lines_append hbefore,
      List.findSome?_append, hskip, ← List.singleton_append, ← List.append_assoc,
      lines_append (.inr ⟨line, rfl⟩), lines_feed hline, List.findSome?_append,
      List.findSome?_singleton, after?_withoutFinal hafter]
    rfl

/-! ## What was printed -/

/-- A line with a value behind its marker, in quotes and among blanks. -/
structure PrintedLine (marker : String) where
  /-- What stands in front of the marker. -/
  front : String
  blanksBefore : String
  quotesBefore : String
  value : String
  quotesBehind : String
  blanksBehind : String
  front_line : '\n' ∉ front.toList
  front_first : FirstBehind (piece marker) front.toList
  blanks : ∀ c ∈ (blanksBefore ++ blanksBehind).toList, isBlank c = true ∧ c ≠ '\n'
  quotes : ∀ c ∈ (quotesBefore ++ quotesBehind).toList, isQuote c = true
  value_line : '\n' ∉ value.toList
  value_notBlank : Trimmed isBlank value.toList
  value_notQuoted : Trimmed isQuote value.toList

namespace PrintedLine

variable {marker : String} (line : PrintedLine marker)

/-- What stands behind the marker. -/
def rest : String :=
  line.blanksBefore ++ (line.quotesBefore ++ (line.value ++ line.quotesBehind) ++ line.blanksBehind)

/-- The line as it is printed. -/
def text : String := line.front ++ (marker ++ "=" ++ line.rest)

theorem after?_text : after? (piece marker) line.text.toList = some line.rest.toList := by
  refine after?_eq_some_iff.mpr ⟨line.front.toList, ?_, line.front_first⟩
  simp [text, piece]

theorem unwrap_rest : unwrap line.rest.toList = line.value.toList := by
  have hblanks := line.blanks
  have hquotes := line.quotes
  simp only [String.toList_append, List.forall_mem_append] at hblanks hquotes
  have hkept : Trimmed isBlank
      (line.quotesBefore.toList ++ (line.value.toList ++ line.quotesBehind.toList)) :=
    line.value_notBlank.wrap (fun c hc => not_isBlank_of_isQuote (hquotes.1 c hc))
      (fun c hc => not_isBlank_of_isQuote (hquotes.2 c hc))
  simp only [rest, String.toList_append]
  rw [unwrap, trim, trimBy_append (fun c hc => (hblanks.1 c hc).1) hkept
    (fun c hc => (hblanks.2 c hc).1), trimBy_append hquotes.1 line.value_notQuoted hquotes.2]

theorem feed_not_mem_text (hmarker : '\n' ∉ marker.toList) : '\n' ∉ line.text.toList := by
  have hblanks : '\n' ∉ (line.blanksBefore ++ line.blanksBehind).toList := fun h =>
    (line.blanks _ h).2 rfl
  have hquotes : '\n' ∉ (line.quotesBefore ++ line.quotesBehind).toList := fun h =>
    absurd (line.quotes _ h) (by decide)
  have hfront := line.front_line
  have hvalue := line.value_line
  simp only [String.toList_append, List.mem_append, not_or] at hblanks hquotes
  simp [text, rest, hblanks, hquotes, hfront, hvalue, hmarker]

end PrintedLine

/-- A text of lines without a marker does not hold it across two lines either. -/
theorem not_isInfix_unlines {marker : String} (hmarker : '\n' ∉ marker.toList)
    {lines : List String} (h : ∀ line ∈ lines, ¬piece marker <:+: line.toList) :
    ¬piece marker <:+: (unlines lines).toList := by
  have hfeed : '\n' ∉ piece marker := by simp [piece, hmarker]
  induction lines with
  | nil =>
    intro hoccurs
    exact piece_ne_nil marker (List.infix_nil.mp hoccurs)
  | cons line lines ih =>
    obtain ⟨hline, hlines⟩ := List.forall_mem_cons.mp h
    rw [toList_unlines_cons]
    intro hoccurs
    rcases isInfixOf_of_stop hfeed hoccurs with hoccurs | hoccurs
    · exact hline hoccurs
    · exact ih hlines hoccurs

/--
**Extraction undoes printing.** The value of the first line with the marker is found, whatever is
printed in front of that line, in it and behind it. A text in which no line has the marker has no
value.
-/
theorem extract_printed {marker : String} (hmarker : '\n' ∉ marker.toList) :
    (∀ (preceding : List String) (line : PrintedLine marker),
      (∀ earlier ∈ preceding, ¬piece marker <:+: earlier.toList) →
        extract marker (unlines preceding ++ line.text) = line.value ∧
        ∀ following : String,
          extract marker (unlines preceding ++ (line.text ++ ("\n" ++ following))) = line.value) ∧
    ∀ text : String, (∀ line ∈ text.toList.splitOn '\n', ¬piece marker <:+: line) →
      extract marker text = "" := by
  refine ⟨?_, ?_⟩
  · intro preceding line hpreceding
    have hfound : ∀ behind : String,
        behind.toList = [] ∨ (∃ more, behind.toList = '\n' :: more) →
          extract marker (unlines preceding ++ (line.text ++ behind)) = line.value := by
      intro behind hbehind
      have hextract := extract_of_line (endsLine_unlines preceding)
        (not_isInfix_unlines hmarker hpreceding) (line.feed_not_mem_text hmarker) line.after?_text
        hbehind
      rwa [← String.toList_append, ← String.toList_append, String.ofList_toList,
        line.unwrap_rest, String.ofList_toList] at hextract
    refine ⟨?_, ?_⟩
    · have hlast := hfound "" (.inl rfl)
      rwa [String.append_empty] at hlast
    · intro following
      exact hfound ("\n" ++ following) (.inr ⟨following.toList, by simp⟩)
  · intro text hfree
    rw [extract_eq, findSome?_lines_eq_none hfree]
    rfl

/-- A line whose front runs into the marker and whose value holds quotes and the marker again. -/
def PrintedLine.twiceMarked : PrintedLine "ID" where
  front := "node I"
  blanksBefore := "\t"
  quotesBefore := "\"\""
  value := "a \"b\" ID=c"
  quotesBehind := "\""
  blanksBehind := " \r"
  front_line := by decide +kernel
  front_first := by decide +kernel
  blanks := List.forall_mem_cons.mpr ⟨by decide, List.forall_mem_cons.mpr ⟨by decide,
    List.forall_mem_cons.mpr ⟨by decide, List.forall_mem_nil _⟩⟩⟩
  quotes := List.forall_mem_cons.mpr ⟨by decide, List.forall_mem_cons.mpr ⟨by decide,
    List.forall_mem_cons.mpr ⟨by decide, List.forall_mem_nil _⟩⟩⟩
  value_line := by decide +kernel
  value_notBlank := by decide +kernel
  value_notQuoted := by decide +kernel

theorem extract_printed_twiceMarked :
    '\n' ∉ "ID".toList ∧
    (∀ earlier ∈ ["ID is pending", "I", "D=1\r"], ¬piece "ID" <:+: earlier.toList) ∧
    extract "ID" "ID is pending\nI\nD=1\r\nnode IID=\t\"\"a \"b\" ID=c\" \r" = "a \"b\" ID=c" ∧
    (∀ following, extract "ID" (unlines ["ID is pending", "I", "D=1\r"] ++
      (PrintedLine.twiceMarked.text ++ ("\n" ++ following))) = "a \"b\" ID=c") ∧
    extract "ID" "ID is pending\nI\nD=1" = "" := by
  have hmarker : '\n' ∉ "ID".toList := by decide +kernel
  have hpreceding : ∀ earlier ∈ ["ID is pending", "I", "D=1\r"],
      ¬piece "ID" <:+: earlier.toList := by
    decide +kernel
  obtain ⟨hfound, hnone⟩ := extract_printed hmarker
  obtain ⟨hlast, hfollowed⟩ := hfound _ PrintedLine.twiceMarked hpreceding
  refine ⟨hmarker, hpreceding, ?_, hfollowed, ?_⟩
  · have htext : unlines ["ID is pending", "I", "D=1\r"] ++ PrintedLine.twiceMarked.text =
        "ID is pending\nI\nD=1\r\nnode IID=\t\"\"a \"b\" ID=c\" \r" := by
      decide +kernel
    rwa [htext] at hlast
  · exact hnone _ (by decide +kernel)

end Marker

end Provisioner
