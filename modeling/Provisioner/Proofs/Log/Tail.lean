import Provisioner.Log.Transcript
import Provisioner.Proofs.Log.Redactor
import Provisioner.Proofs.Text.Lines

/-!
# What the tail of a transcript shows

The lines of the tail are masked one by one and then put together again. A secret within one line
is masked in every line, and a line feed is no part of it, so it does not arise where lines meet. A
secret that reaches over the end of a line is in none of the lines and is not masked
(`tail_secretOverTwoLines`), but what is masked around it never makes it appear either: masking
shows nothing that was not there before, at the same end of the line (`Hides`), and this carries
over to lines that are put together (`Hides.intercalate`).
-/

namespace Provisioner

namespace Redactor

/--
Masking makes `masked` of `text`: what is shown without an asterisk was there before, at an end if
it is shown at that end, and nothing was masked if no asterisk is shown.
-/
structure Hides (text masked : List Char) : Prop where
  whole : '*' ∉ masked → masked = text
  front : ∀ q, '*' ∉ q → q <+: masked → q <+: text
  back : ∀ q, '*' ∉ q → q <:+ masked → q <:+ text
  inner : ∀ q, '*' ∉ q → q <:+: masked → q <:+: text

namespace Hides

variable {a b c d : List Char}

theorem rfl : Hides a a :=
  ⟨fun _ => Eq.refl a, fun _ _ h => h, fun _ _ h => h, fun _ _ h => h⟩

theorem trans (h : Hides a b) (h' : Hides b c) : Hides a c where
  whole hstar := by
    have hb := h'.whole hstar
    exact hb.trans (h.whole (hb ▸ hstar))
  front q hq hc := h.front q hq (h'.front q hq hc)
  back q hq hc := h.back q hq (h'.back q hq hc)
  inner q hq hc := h.inner q hq (h'.inner q hq hc)

/-- What reaches over the place where two masked texts meet was at the ends of both. -/
theorem append (h : Hides a b) (h' : Hides c d) : Hides (a ++ c) (b ++ d) where
  whole hstar := by
    rw [List.mem_append, not_or] at hstar
    rw [h.whole hstar.1, h'.whole hstar.2]
  front q hq hmasked := by
    rcases List.prefix_or_prefix_of_prefix hmasked (List.prefix_append b d) with hb | ⟨rest, hrest⟩
    · exact (h.front q hq hb).trans (List.prefix_append a c)
    · subst hrest
      rw [List.mem_append, not_or] at hq
      have hd := (List.prefix_append_right_inj b).mp hmasked
      rw [h.whole hq.1]
      exact (List.prefix_append_right_inj a).mpr (h'.front rest hq.2 hd)
  back q hq hmasked := by
    rcases List.suffix_or_suffix_of_suffix hmasked (List.suffix_append b d) with hd | ⟨rest, hrest⟩
    · exact (h'.back q hq hd).trans (List.suffix_append a c)
    · subst hrest
      rw [List.mem_append, not_or] at hq
      have hb := List.suffix_append_self_iff.mp hmasked
      rw [h'.whole hq.2]
      exact List.suffix_append_self_iff.mpr (h.back rest hq.1 hb)
  inner q hq hmasked := by
    rw [List.infix_append_iff] at hmasked ⊢
    rcases hmasked with hb | hd | ⟨q, r, rfl, hb, hd⟩
    · exact .inl (h.inner q hq hb)
    · exact .inr (.inl (h'.inner q hq hd))
    · rw [List.mem_append, not_or] at hq
      exact .inr (.inr ⟨q, r, Eq.refl _, h.back q hq.1 hb, h'.front r hq.2 hd⟩)

/-- Texts that are masked one by one may be put together. -/
theorem intercalate {f : List Char → List Char} (h : ∀ text, Hides text (f text))
    (between : List Char) (texts : List (List Char)) :
    Hides (between.intercalate texts) (between.intercalate (texts.map f)) := by
  induction texts with
  | nil => exact rfl
  | cons text texts ih =>
    cases texts with
    | nil =>
      rw [List.map_singleton, List.intercalate_singleton, List.intercalate_singleton]
      exact h text
    | cons next texts =>
      rw [List.map_cons, List.map_cons, List.intercalate_cons_cons, List.intercalate_cons_cons]
      exact ((h text).append rfl).append ih

end Hides

theorem hides_replaceAll (secret text : List Char) :
    Hides text (Text.replaceAll secret (mask secret) text) where
  whole := Text.replaceFrom_of_not_mem
  front _ hq := Text.isPrefixOf_of_replaceFrom (List.take_prefix visible secret) hq
  back _ hq := Text.isSuffixOf_of_replaceFrom eq_star_of_mem hq
  inner _ hq := isInfixOf_of_masked hq

theorem hides_redact (r : Redactor) (line : String) :
    Hides line.toList (r.redact line).toList := by
  rw [redact, String.toList_ofList]
  generalize line.toList = text
  induction r.secrets generalizing text with
  | nil => exact .rfl
  | cons secret secrets ih => exact (hides_replaceAll secret.toList text).trans (ih _)

/-- Masking adds no character but asterisks. -/
theorem not_mem_redact {r : Redactor} {line : String} {c : Char} (hc : c ≠ '*')
    (h : c ∉ line.toList) : c ∉ (r.redact line).toList := by
  intro hmem
  obtain ⟨front, rest, hsplit⟩ := List.append_of_mem hmem
  have hafter : [c] <:+: (r.redact line).toList := ⟨front, rest, by simp [hsplit]⟩
  have hbefore := (r.hides_redact line).inner [c] (by simpa using hc.symm) hafter
  exact h (hbefore.subset (List.mem_singleton_self c))

end Redactor

namespace Transcript

/-! ## The lines of the tail -/

/-- The last lines of a transcript as they were printed. -/
def lastLines (transcript : String) : List (List Char) :=
  (Text.lines transcript.toList).drop ((Text.lines transcript.toList).length - tailLength)

variable {transcript : String} {redactor : Redactor}

theorem length_lastLines_le : (lastLines transcript).length ≤ tailLength := by
  rw [lastLines, List.length_drop]
  omega

theorem not_mem_of_mem_lastLines {line : List Char} (h : line ∈ lastLines transcript) :
    '\n' ∉ line :=
  Text.not_mem_of_mem_lines (List.mem_of_mem_drop h)

/-- A line of the tail. -/
def maskedLine (redactor : Redactor) (line : List Char) : List Char :=
  (redactor.redact (String.ofList line)).toList

/-- The tail is the last lines, each of them masked. -/
theorem toList_tail : (tail transcript redactor).toList =
    ['\n'].intercalate ((lastLines transcript).map (maskedLine redactor)) := by
  rw [tail, String.toList_intercalate, tailLines, List.map_map]
  rfl

theorem hides_maskedLine (line : List Char) : Redactor.Hides line (maskedLine redactor line) := by
  have h := redactor.hides_redact (String.ofList line)
  rwa [String.toList_ofList] at h

/-- There are no more lines than were masked. -/
theorem length_splitOn_tail : ((tail transcript redactor).toList.splitOn '\n').length ≤ 40 := by
  rw [toList_tail]
  cases hlines : lastLines transcript with
  | nil =>
    rw [List.map_nil]
    decide
  | cons line lines =>
    rw [← hlines, List.splitOn_intercalate, List.length_map]
    · exact length_lastLines_le
    · intro masked hmasked
      obtain ⟨line, hline, rfl⟩ := List.mem_map.mp hmasked
      refine Redactor.not_mem_redact (by decide) ?_
      rw [String.toList_ofList]
      exact not_mem_of_mem_lastLines hline
    · simp [hlines]

/--
**What the tail of a transcript shows.** It has at most forty lines. It holds no secret of more than
three characters and without an asterisk that is within one line. Such a secret that reaches over
the end of a line is held only if the last lines hold it as they were printed.
-/
theorem tail_masked (transcript : String) (secrets : List String) :
    ((tail transcript (.ofSecrets secrets)).toList.splitOn '\n').length ≤ 40 ∧
    ∀ secret ∈ secrets, 3 < secret.length → '*' ∉ secret.toList →
      ('\n' ∉ secret.toList →
        ¬secret.toList <:+: (tail transcript (.ofSecrets secrets)).toList) ∧
      (secret.toList <:+: (tail transcript (.ofSecrets secrets)).toList →
        secret.toList <:+: ['\n'].intercalate (lastLines transcript)) := by
  refine ⟨length_splitOn_tail, ?_⟩
  intro secret hmem hlong hstar
  rw [toList_tail]
  constructor
  · intro hfeed hoccurs
    have hne : secret.toList ≠ [] := by
      intro hnil
      rw [← String.length_toList, hnil] at hlong
      exact absurd hlong (by decide)
    obtain ⟨masked, hmasked, hline⟩ := Text.exists_of_isInfixOf_intercalate hfeed hne hoccurs
    obtain ⟨line, -, rfl⟩ := List.mem_map.mp hmasked
    have hgone := Redactor.not_occursIn_redact (Redactor.mem_secrets_of_visible_lt hmem hlong)
      hstar hlong (String.ofList line)
    rw [Bool.eq_false_iff, Ne, Text.occursIn_iff] at hgone
    exact hgone hline
  · exact (Redactor.Hides.intercalate hides_maskedLine ['\n'] (lastLines transcript)).inner _ hstar

/-- The tail holds a secret that the tool printed over two lines. -/
theorem tail_secretOverTwoLines :
    (∀ secret ∈ ["sk-1\n2345"], 3 < secret.length ∧ '*' ∉ secret.toList) ∧
    ofLines ["fatal: sk-1", "2345"] = "fatal: sk-1\n2345\n" ∧
    tail "fatal: sk-1\n2345\n" (.ofSecrets ["sk-1\n2345"]) = "fatal: sk-1\n2345" ∧
    "sk-1\n2345".toList <:+: (tail "fatal: sk-1\n2345\n" (.ofSecrets ["sk-1\n2345"])).toList := by
  have htail : tail "fatal: sk-1\n2345\n" (.ofSecrets ["sk-1\n2345"]) = "fatal: sk-1\n2345" := by
    decide +kernel
  refine ⟨by decide +kernel, by decide +kernel, htail, ?_⟩
  rw [htail]
  exact Text.occursIn_iff.mp (by decide +kernel)

/-- A secret within a line, one that reaches over the end of a line, and a part of the first. -/
def printedSecrets : List String := ["sk-live-abcdef", "one\ntwo", "live"]

/-- A transcript that begins within a line and whose lines end with returns. -/
def printedTranscript : String :=
  "ve-abcdef\r\nfatal: token sk-live-abcdef rejected\r\none\r\ntwo"

theorem ofSecrets_printedSecrets : Redactor.ofSecrets printedSecrets = ⟨printedSecrets⟩ := by
  have hsorted : printedSecrets.Pairwise fun a b =>
      decide (b.utf8ByteSize ≤ a.utf8ByteSize) = true := by decide +kernel
  have hfilter : printedSecrets.filter (· ≠ "") = printedSecrets := by decide +kernel
  rw [Redactor.ofSecrets, hfilter, List.mergeSort_of_pairwise hsorted]
  decide +kernel

theorem tail_masked_printedSecrets :
    ("sk-live-abcdef" ∈ printedSecrets ∧ 3 < "sk-live-abcdef".length ∧
      '*' ∉ "sk-live-abcdef".toList ∧ '\n' ∉ "sk-live-abcdef".toList) ∧
    ("one\ntwo" ∈ printedSecrets ∧ 3 < "one\ntwo".length ∧ '*' ∉ "one\ntwo".toList) ∧
    tail printedTranscript (.ofSecrets printedSecrets) =
      "ve-abcdef\nfatal: token sk-*** rejected\none\ntwo" ∧
    ¬"sk-live-abcdef".toList <:+: (tail printedTranscript (.ofSecrets printedSecrets)).toList ∧
    "one\ntwo".toList <:+: (tail printedTranscript (.ofSecrets printedSecrets)).toList ∧
    "one\ntwo".toList <:+: ['\n'].intercalate (lastLines printedTranscript) := by
  have hwithin : "sk-live-abcdef" ∈ printedSecrets ∧ 3 < "sk-live-abcdef".length ∧
      '*' ∉ "sk-live-abcdef".toList ∧ '\n' ∉ "sk-live-abcdef".toList := by decide +kernel
  have hover : "one\ntwo" ∈ printedSecrets ∧ 3 < "one\ntwo".length ∧
      '*' ∉ "one\ntwo".toList := by decide +kernel
  have htail : tail printedTranscript (.ofSecrets printedSecrets) =
      "ve-abcdef\nfatal: token sk-*** rejected\none\ntwo" := by
    rw [ofSecrets_printedSecrets]
    decide +kernel
  have hheld : "one\ntwo".toList <:+:
      (tail printedTranscript (.ofSecrets printedSecrets)).toList := by
    rw [htail]
    exact Text.occursIn_iff.mp (by decide +kernel)
  obtain ⟨-, hmasked⟩ := tail_masked printedTranscript printedSecrets
  exact ⟨hwithin, hover, htail,
    (hmasked _ hwithin.1 hwithin.2.1 hwithin.2.2.1).1 hwithin.2.2.2, hheld,
    (hmasked _ hover.1 hover.2.1 hover.2.2).2 hheld⟩

end Transcript

end Provisioner
