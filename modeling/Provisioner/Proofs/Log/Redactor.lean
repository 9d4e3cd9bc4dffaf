import Provisioner.Inputs.Basic
import Provisioner.Log.Redactor
import Provisioner.Proofs.Text.Search

/-!
# No secret is left in a masked line

Masking another secret, earlier or later, never makes a secret appear: a mask begins like what it
stands for and ends in asterisks, and a secret without asterisks cannot reach over these.
-/

namespace Provisioner

namespace Redactor

/-! ## Which secrets are masked -/

theorem mem_dropRepeats {secret : String} : ∀ {secrets : List String},
    secret ∈ dropRepeats secrets ↔ secret ∈ secrets
  | [] | [_] => by simp [dropRepeats]
  | a :: b :: rest => by
    have ih := @mem_dropRepeats secret (b :: rest)
    rw [dropRepeats]
    split
    · next hab =>
      subst hab
      rw [ih]
      simp
    · rw [List.mem_cons, ih, List.mem_cons (l := b :: rest)]

theorem mem_secrets_ofSecrets {secret : String} {secrets : List String} :
    secret ∈ (ofSecrets secrets).secrets ↔ secret ∈ secrets ∧ secret ≠ "" := by
  simp [ofSecrets, mem_dropRepeats]

/-- A secret of which a mask hides something is masked. -/
theorem mem_secrets_of_visible_lt {secret : String} {secrets : List String} (h : secret ∈ secrets)
    (hlt : visible < secret.length) : secret ∈ (ofSecrets secrets).secrets := by
  refine mem_secrets_ofSecrets.mpr ⟨h, ?_⟩
  rintro rfl
  simp at hlt

theorem dropRepeats_sublist : ∀ secrets : List String, (dropRepeats secrets).Sublist secrets
  | [] | [_] => by simp [dropRepeats]
  | a :: b :: rest => by
    have ih := dropRepeats_sublist (b :: rest)
    rw [dropRepeats]
    split
    · exact ih.trans (List.sublist_cons_self a _)
    · exact ih.cons_cons a

/-- Longer secrets are masked first. -/
theorem pairwise_secrets_ofSecrets (secrets : List String) :
    (ofSecrets secrets).secrets.Pairwise fun a b => b.utf8ByteSize ≤ a.utf8ByteSize := by
  have hsorted : ((secrets.filter (· ≠ "")).mergeSort fun a b =>
      b.utf8ByteSize ≤ a.utf8ByteSize).Pairwise fun a b =>
        decide (b.utf8ByteSize ≤ a.utf8ByteSize) = true :=
    List.pairwise_mergeSort (by intro a b c; simp; omega) (by intro a b; simp; omega) _
  exact (hsorted.imp of_decide_eq_true).sublist (dropRepeats_sublist _)

/-! ## What is left in a line -/

section

variable {q secret : List Char}

theorem eq_star_of_mem : ∀ c ∈ ['*', '*'], c = '*' := by
  simp

theorem isInfixOf_of_masked (hq : '*' ∉ q) {text : List Char}
    (h : q <:+: Text.replaceAll secret (mask secret) text) : q <:+: text :=
  Text.isInfixOf_of_replaceFrom (List.take_prefix visible secret) eq_star_of_mem hq h

theorem not_isInfixOf_masked (hstar : '*' ∉ secret) (hlt : visible < secret.length)
    (text : List Char) : ¬secret <:+: Text.replaceAll secret (mask secret) text :=
  Text.not_isInfixOf_replaceFrom (List.take_prefix visible secret)
    (by rw [List.length_take]; omega) eq_star_of_mem hstar text 0

end

/-- What a masked line holds, the line held before, asterisks apart. -/
theorem isInfixOf_of_foldl {q : List Char} (hq : '*' ∉ q) (secrets : List String)
    {text : List Char}
    (h : q <:+: secrets.foldl
      (fun text secret => Text.replaceAll secret.toList (mask secret.toList) text) text) :
    q <:+: text := by
  induction secrets generalizing text with
  | nil => exact h
  | cons secret secrets ih => exact isInfixOf_of_masked hq (ih h)

theorem not_occursIn_redact {r : Redactor} {secret : String} (hmem : secret ∈ r.secrets)
    (hstar : '*' ∉ secret.toList) (hlt : visible < secret.length) (line : String) :
    Text.occursIn secret.toList (r.redact line).toList = false := by
  obtain ⟨before, after, hsplit⟩ := List.append_of_mem hmem
  rw [Bool.eq_false_iff, Ne, Text.occursIn_iff, redact, String.toList_ofList, hsplit,
    List.foldl_append, List.foldl_cons]
  intro h
  -- the later masks leave it alone, so it would have survived its own
  have hmasked := isInfixOf_of_foldl hstar after h
  exact not_isInfixOf_masked hstar (by rwa [String.length_toList]) _ hmasked

/--
**No secret of more than three characters and without an asterisk is left in a masked line**,
whatever the other secrets are and however they overlap.
-/
theorem no_secret_left {secrets : List String} {secret : String} (hmem : secret ∈ secrets)
    (hlong : 3 < secret.length) (hstar : '*' ∉ secret.toList) (line : String) :
    ¬secret.toList <:+: ((ofSecrets secrets).redact line).toList := by
  intro h
  have hleft := not_occursIn_redact (mem_secrets_of_visible_lt hmem hlong) hstar hlong line
  rw [Text.occursIn_iff.mpr h] at hleft
  cases hleft

/-- The mask of one secret leaves the other one standing, and the line is masked again. -/
theorem no_secret_left_overlapping :
    "abcde" ∈ ["cdefg", "ab", "abcde", "a*cdef", "cdefg"] ∧ 3 < "abcde".length ∧
    '*' ∉ "abcde".toList ∧ Text.replaceAll "cdefg".toList (mask "cdefg".toList) "abcdefg".toList =
      "abcde***".toList ∧
    ¬"abcde".toList <:+:
      ((ofSecrets ["cdefg", "ab", "abcde", "a*cdef", "cdefg"]).redact "abcdefg").toList := by
  have hmem : "abcde" ∈ ["cdefg", "ab", "abcde", "a*cdef", "cdefg"] := by decide +kernel
  have hlong : 3 < "abcde".length := by decide +kernel
  have hstar : '*' ∉ "abcde".toList := by decide +kernel
  exact ⟨hmem, hlong, hstar, by decide +kernel, no_secret_left hmem hlong hstar "abcdefg"⟩

/-- A line that holds none of the secrets stays as it is. -/
theorem redact_of_free {r : Redactor} {line : String}
    (h : ∀ secret ∈ r.secrets, Text.occursIn secret.toList line.toList = false) :
    r.redact line = line := by
  have hfold : r.secrets.foldl
      (fun text secret => Text.replaceAll secret.toList (mask secret.toList) text) line.toList =
        line.toList := by
    generalize r.secrets = secrets at h
    induction secrets with
    | nil => rfl
    | cons secret secrets ih =>
      obtain ⟨hsecret, hsecrets⟩ := List.forall_mem_cons.mp h
      rw [Bool.eq_false_iff, Ne, Text.occursIn_iff] at hsecret
      rw [List.foldl_cons, Text.replaceAll_of_not_isInfixOf hsecret, ih hsecrets]
  rw [redact, hfold, String.ofList_toList]

end Redactor

/-! ## The secrets of a run -/

namespace Inputs

theorem length_of_mem_secrets {x : Inputs} {secret : String} (h : secret ∈ x.secrets) :
    Redactor.visible < secret.length := by
  have hlt := (List.mem_filter.mp h).2
  exact of_decide_eq_true hlt

theorem not_occursIn_redact {x : Inputs} {secret : String} (hmem : secret ∈ x.secrets)
    (hstar : '*' ∉ secret.toList) (line : String) :
    Text.occursIn secret.toList ((Redactor.ofSecrets x.secrets).redact line).toList = false := by
  have hlt := length_of_mem_secrets hmem
  exact Redactor.not_occursIn_redact (Redactor.mem_secrets_of_visible_lt hmem hlt) hstar hlt line

/-- A line that holds none of the secrets of some inputs is logged as it is. -/
theorem redact_of_free {x : Inputs} {line : String}
    (h : ∀ secret ∈ x.secrets, Text.occursIn secret.toList line.toList = false) :
    (Redactor.ofSecrets x.secrets).redact line = line :=
  Redactor.redact_of_free fun secret hmem =>
    h secret (Redactor.mem_secrets_ofSecrets.mp hmem).1

end Inputs

end Provisioner
