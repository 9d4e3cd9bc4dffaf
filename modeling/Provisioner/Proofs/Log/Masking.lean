import Provisioner.Proofs.Log.Redactor
import Provisioner.Proofs.Text.Size

/-!
# Masking is exact

A text is given by its parts: some characters, or a copy of a secret. When secrets occur in it only
inside of the copies, masking leaves the characters alone and turns each copy into its own mask.

Secrets are masked one after the other, so in between some copies are masked and others are not
(`shownText`). Those that are not masked yet are of the secrets that are not longer in bytes than
the one whose turn it is. That one therefore stands in no copy but its own, and it cannot reach over
a mask (`replaceAll_shownText`).
-/

namespace Provisioner.Redactor

/-- A part of a text: some characters, or a copy of one of `n` secrets. -/
inductive Part (n : Nat) where
  | segment (text : String)
  | copy (i : Fin n)

section

variable {n : Nat}

/-- Whether a part is a copy of a secret. -/
def Part.isCopy : Part n → Bool
  | .segment _ => false
  | .copy _ => true

variable (secrets : Vector String n)

/-- A part as it stands in the text. -/
def Part.text : Part n → String
  | .segment text => text
  | .copy i => secrets[i]

/-- A part as it should be logged. -/
def Part.masked : Part n → String
  | .segment text => text
  | .copy i => String.ofList (secrets[i].toList.take 3) ++ "***"

/-- The text of some parts. -/
def textOf (parts : List (Part n)) : String := String.join (parts.map (Part.text secrets))

/-- The text of some parts with every copy masked. -/
def maskedText (parts : List (Part n)) : String := String.join (parts.map (Part.masked secrets))

/-- Wherever a secret occurs in the text, it lies inside of one of the copies. -/
def Confined (parts : List (Part n)) : Prop :=
  ∀ (i : Fin n) (before behind : String),
    textOf secrets parts = before ++ secrets[i] ++ behind →
      ∃ front j rest, parts = front ++ .copy j :: rest ∧
        (textOf secrets front).length ≤ before.length ∧
        before.length + secrets[i].length ≤ (textOf secrets front).length + secrets[j].length

/-- Whether one of the copies covers so many characters from some place on. -/
def covers : List (Part n) → Nat → Nat → Bool
  | [], _, _ => false
  | part :: parts, place, count =>
    (part.isCopy && place + count ≤ (part.text secrets).length) ||
      ((part.text secrets).length ≤ place &&
        covers parts (place - (part.text secrets).length) count)

/-- `Confined`, looked for at every place of the text. -/
def isConfined (parts : List (Part n)) : Bool :=
  secrets.toList.all fun secret =>
    (List.range ((textOf secrets parts).length + 1)).all fun place =>
      !secret.toList.isPrefixOf ((textOf secrets parts).toList.drop place) ||
        covers secrets parts place secret.length

/-- Something of every secret is hidden, and none of them holds a star. -/
structure Maskable : Prop where
  long : ∀ i : Fin n, 3 < secrets[i].length
  starless : ∀ i : Fin n, '*' ∉ secrets[i].toList

variable {secrets}

theorem textOf_cons (part : Part n) (parts : List (Part n)) :
    textOf secrets (part :: parts) = part.text secrets ++ textOf secrets parts := by
  simp [textOf]

theorem textOf_append (a b : List (Part n)) :
    textOf secrets (a ++ b) = textOf secrets a ++ textOf secrets b := by
  simp [textOf]

/-! ## Whether a text is confined -/

theorem covers_iff {parts : List (Part n)} {place count : Nat} :
    covers secrets parts place count = true ↔
      ∃ front j rest, parts = front ++ .copy j :: rest ∧
        (textOf secrets front).length ≤ place ∧
        place + count ≤ (textOf secrets front).length + secrets[j].length := by
  have hnil : (textOf secrets []).length = 0 := rfl
  induction parts generalizing place with
  | nil => simp [covers]
  | cons part parts ih =>
    simp only [covers, Bool.or_eq_true, Bool.and_eq_true, decide_eq_true_eq]
    constructor
    · rintro (⟨hcopy, hle⟩ | ⟨hle, hbehind⟩)
      · cases part with
        | segment text => cases hcopy
        | copy j =>
          refine ⟨[], j, parts, rfl, by omega, ?_⟩
          rwa [hnil, Nat.zero_add]
      · obtain ⟨front, j, rest, rfl, hplace, hcount⟩ := ih.mp hbehind
        refine ⟨part :: front, j, rest, rfl, ?_, ?_⟩
        · rw [textOf_cons, String.length_append]
          omega
        · rw [textOf_cons, String.length_append]
          omega
    · rintro ⟨front, j, rest, hparts, hplace, hcount⟩
      cases front with
      | nil =>
        obtain rfl := (List.cons.inj hparts).1
        rw [hnil, Nat.zero_add] at hcount
        exact .inl ⟨rfl, hcount⟩
      | cons first front =>
        obtain ⟨rfl, hrest⟩ := List.cons.inj hparts
        rw [textOf_cons, String.length_append] at hplace hcount
        exact .inr ⟨by omega, ih.mpr ⟨front, j, rest, hrest, by omega, by omega⟩⟩

theorem isConfined_iff {parts : List (Part n)} :
    isConfined secrets parts = true ↔ Confined secrets parts := by
  simp only [isConfined, List.all_eq_true, List.mem_range, Bool.or_eq_true, Bool.not_eq_true',
    covers_iff]
  constructor
  · intro h i before behind hsplit
    have hlength := congrArg String.length hsplit
    rw [String.length_append, String.length_append] at hlength
    have hdrop : (textOf secrets parts).toList.drop before.length =
        secrets[i].toList ++ behind.toList := by
      rw [hsplit, String.append_assoc, String.toList_append, String.toList_append]
      exact List.drop_left' String.length_toList
    refine (h secrets[i] ?_ before.length (by omega)).resolve_left ?_
    · exact Vector.mem_toList_iff.mpr (Vector.getElem_mem i.isLt)
    · rw [Bool.not_eq_false, List.isPrefixOf_iff_prefix, hdrop]
      exact List.prefix_append _ _
  · intro h secret hmem place hplace
    obtain ⟨i, hi, rfl⟩ := Vector.getElem_of_mem (Vector.mem_toList_iff.mp hmem)
    by_cases hprefix :
        secrets[i].toList.isPrefixOf ((textOf secrets parts).toList.drop place) = true
    · right
      obtain ⟨behind, hbehind⟩ := List.isPrefixOf_iff_prefix.mp hprefix
      have hsplit : textOf secrets parts =
          String.ofList ((textOf secrets parts).toList.take place) ++ secrets[i] ++
            String.ofList behind := by
        rw [← String.toList_inj]
        simp only [String.toList_append, String.toList_ofList]
        rw [List.append_assoc, hbehind, List.take_append_drop]
      have hfound := h ⟨i, hi⟩ _ _ hsplit
      rwa [String.length_ofList, List.length_take, String.length_toList,
        Nat.min_eq_left (by omega)] at hfound
    · exact .inl (Bool.eq_false_iff.mpr hprefix)

/-! ## Some secrets masked and others not -/

section

variable (secrets)

/-- A part when the secrets in `done` are masked. -/
def Part.shown (done : List String) : Part n → List Char
  | .segment text => text.toList
  | .copy i => if secrets[i] ∈ done then mask secrets[i].toList else secrets[i].toList

/-- The text of some parts when the secrets in `done` are masked. -/
def shownText (done : List String) (parts : List (Part n)) : List Char :=
  parts.flatMap (Part.shown secrets done)

end

theorem shownText_cons (done : List String) (part : Part n) (parts : List (Part n)) :
    shownText secrets done (part :: parts) =
      part.shown secrets done ++ shownText secrets done parts :=
  List.flatMap_cons

theorem Part.shown_of_mem {done : List String} {i : Fin n} (h : secrets[i] ∈ done) :
    (Part.copy i).shown secrets done = mask secrets[i].toList := if_pos h

theorem Part.shown_of_not_mem {done : List String} {i : Fin n} (h : secrets[i] ∉ done) :
    (Part.copy i).shown secrets done = secrets[i].toList := if_neg h

theorem shownText_nil (parts : List (Part n)) :
    shownText secrets [] parts = (textOf secrets parts).toList := by
  rw [shownText, textOf, String.toList_join, List.flatMap_map]
  congr 1
  funext part
  cases part with
  | segment text => rfl
  | copy i => exact Part.shown_of_not_mem List.not_mem_nil

theorem shownText_of_forall_mem {done : List String} (h : ∀ i : Fin n, secrets[i] ∈ done)
    (parts : List (Part n)) : shownText secrets done parts = (maskedText secrets parts).toList := by
  rw [shownText, maskedText, String.toList_join, List.flatMap_map]
  congr 1
  funext part
  cases part with
  | segment text => rfl
  | copy i =>
    rw [Part.shown_of_mem (h i), Part.masked, String.toList_append, String.toList_ofList]
    rfl

variable (secrets) in
/-- A part is a masked copy, or it is shown as it is. -/
theorem Part.shown_cases (done : List String) (part : Part n) :
    (∃ i, part = .copy i ∧ part.shown secrets done = mask secrets[i].toList) ∨
      part.shown secrets done = (part.text secrets).toList ∧
        ∀ i, part = .copy i → secrets[i] ∉ done := by
  cases part with
  | segment text =>
    refine .inr ⟨rfl, ?_⟩
    intro i hi
    cases hi
  | copy i =>
    by_cases h : secrets[i] ∈ done
    · exact .inl ⟨i, rfl, shown_of_mem h⟩
    · refine .inr ⟨shown_of_not_mem h, ?_⟩
      rintro j hj
      obtain rfl := Part.copy.inj hj
      exact h

/-- What the shown text begins with, stars apart, the text begins with. -/
theorem isPrefix_of_shownText {q : List Char} (hq : '*' ∉ q) (done : List String)
    {parts : List (Part n)} (h : q <+: shownText secrets done parts) :
    q <+: (textOf secrets parts).toList := by
  induction parts generalizing q with
  | nil => exact h
  | cons part parts ih =>
    rw [shownText_cons] at h
    rw [textOf_cons, String.toList_append]
    rcases part.shown_cases secrets done with ⟨i, rfl, hshown⟩ | ⟨hshown, -⟩
    · rw [hshown, mask, List.append_assoc] at h
      have hvisible : q <+: secrets[i].toList.take visible := Text.isPrefixOf_of_stop hq h
      exact (hvisible.trans (List.take_prefix _ _)).trans (List.prefix_append _ _)
    · rw [hshown] at h
      rcases List.prefix_or_prefix_of_prefix h (List.prefix_append _ _) with h' | ⟨rest, rfl⟩
      · exact h'.trans (List.prefix_append _ _)
      · have hrest : rest <+: shownText secrets done parts := (List.prefix_append_right_inj _).mp h
        have hstar : '*' ∉ rest := fun hmem => hq (List.mem_append_right _ hmem)
        exact (List.prefix_append_right_inj _).mpr (ih hstar hrest)

/-! ## Where the next secret begins -/

/-- A secret begins nowhere in a mask. -/
theorem not_isPrefix_of_mask {q secret a b text : List Char} (hstar : '*' ∉ q)
    (hlong : 3 < q.length) (hsplit : mask secret = a ++ b) (hb : b ≠ []) : ¬q <+: b ++ text := by
  intro h
  have hsuffix : b <:+ secret.take visible ++ stars := ⟨a, hsplit.symm⟩
  rcases List.prefix_or_prefix_of_prefix h (List.prefix_append b text) with h' | h'
  -- it would lie inside of the visible characters, of which there are too few
  · have hinside : q <:+: secret.take visible ++ '*' :: (['*', '*'] ++ []) :=
      h'.isInfix.trans hsuffix.isInfix
    rcases Text.isInfixOf_of_stops eq_star_of_mem hstar hinside with hvisible | hnil
    · have hle := hvisible.length_le
      rw [List.length_take, visible] at hle
      omega
    · rw [List.infix_nil.mp hnil] at hlong
      exact absurd hlong (by decide)
  -- it would reach over the last star
  · have hlast : '*' ∈ b := by
      obtain ⟨front, c, rfl⟩ := (List.eq_nil_or_concat b).resolve_left hb
      rw [List.concat_eq_append] at hsuffix ⊢
      obtain ⟨before, hbefore⟩ := hsuffix
      have hc : '*' = c := by
        have hget := congrArg List.getLast? hbefore
        simpa [stars] using hget.symm
      exact List.mem_append_right _ (List.mem_singleton.mpr hc)
    exact hstar (h'.subset hlast)

variable (secrets) in
/-- A part that begins in front of where another one ends does not stand behind it. -/
theorem eq_nil_of_place (front : List (Part n)) {more rest rest' : List (Part n)}
    {part part' : Part n} (hparts : part :: rest = more ++ part' :: rest')
    (hlt : (textOf secrets (front ++ more)).length <
      (textOf secrets front).length + (part.text secrets).length) : more = [] := by
  cases more with
  | nil => rfl
  | cons first more =>
    obtain rfl := (List.cons.inj hparts).1
    rw [textOf_append, textOf_cons, String.length_append, String.length_append] at hlt
    omega

variable (secrets) in
/-- Two parts of a text that share a place in it are the same part. -/
theorem eq_of_place (place : Nat) {front rest front' rest' : List (Part n)} {part part' : Part n}
    (hsplit : front ++ part :: rest = front' ++ part' :: rest')
    (hle : (textOf secrets front).length ≤ place)
    (hlt : place < (textOf secrets front).length + (part.text secrets).length)
    (hle' : (textOf secrets front').length ≤ place)
    (hlt' : place < (textOf secrets front').length + (part'.text secrets).length) :
    front = front' ∧ part = part' := by
  rcases List.append_eq_append_iff.mp hsplit with ⟨more, rfl, hparts⟩ | ⟨more, rfl, hparts⟩
  · obtain rfl := eq_nil_of_place secrets front hparts (by omega)
    exact ⟨(List.append_nil front).symm, (List.cons.inj hparts).1⟩
  · obtain rfl := eq_nil_of_place secrets front' hparts (by omega)
    exact ⟨List.append_nil front', (List.cons.inj hparts).1.symm⟩

section

variable {parts : List (Part n)} {done : List String} {i : Fin n}

/-- A secret begins in no other part that is shown as it is, if all longer secrets are masked. -/
theorem not_isPrefix_of_text (hsecrets : Maskable secrets) (hconfined : Confined secrets parts)
    (hdone : ∀ j : Fin n,
      secrets[j] ∉ done → secrets[j].utf8ByteSize ≤ secrets[i].utf8ByteSize)
    {front rest : List (Part n)} {part : Part n} (hparts : parts = front ++ part :: rest)
    (hother : ∀ j, part = .copy j → secrets[j] ≠ secrets[i] ∧ secrets[j] ∉ done)
    {a b : List Char} (hsplit : (part.text secrets).toList = a ++ b) (hb : b ≠ []) :
    ¬secrets[i].toList <+: b ++ shownText secrets done rest := by
  intro hoccurs
  have hstart : secrets[i].toList <+: b ++ (textOf secrets rest).toList := by
    have hlift :
        secrets[i].toList <+: (textOf secrets (.segment (String.ofList b) :: rest)).toList :=
      isPrefix_of_shownText (hsecrets.starless i) done
        (by rwa [shownText_cons, Part.shown, String.toList_ofList])
    rwa [textOf_cons, String.toList_append, Part.text, String.toList_ofList] at hlift
  obtain ⟨behind, hbehind⟩ := hstart
  have htext : textOf secrets parts =
      (textOf secrets front ++ String.ofList a) ++ secrets[i] ++ String.ofList behind := by
    rw [← String.toList_inj, hparts, textOf_append, String.toList_append, textOf_cons,
      String.toList_append, hsplit, List.append_assoc, ← hbehind]
    simp
  have hlong := hsecrets.long i
  have hlength := congrArg List.length hsplit
  have hpos := List.length_pos_iff.mpr hb
  rw [String.length_toList, List.length_append] at hlength
  obtain ⟨front', j, rest', hparts', hle, hlt⟩ := hconfined i _ _ htext
  rw [String.length_append, String.length_ofList] at hle hlt
  obtain ⟨rfl, rfl⟩ := eq_of_place secrets ((textOf secrets front).length + a.length)
    (hparts.symm.trans hparts') (by omega) (by omega) (by omega) (by rw [Part.text]; omega)
  obtain ⟨hne, hnot⟩ := hother j rfl
  rw [Part.text] at hsplit hlength
  have hprefix : secrets[i].toList <+: b :=
    List.prefix_of_prefix_length_le ⟨behind, hbehind⟩ (List.prefix_append b _)
      (by rw [String.length_toList]; omega)
  have hinfix : secrets[i].toList <:+: secrets[j].toList := by
    rw [hsplit]
    exact hprefix.isInfix.trans (List.suffix_append a b).isInfix
  have hle := hdone j hnot
  rw [← Text.size_toList, ← Text.size_toList secrets[i]] at hle
  exact hne (String.toList_inj.mp (Text.eq_of_isInfix_of_size_le hinfix hle)).symm

theorem Part.shown_cons_of_not_own {part : Part n}
    (h : ¬∃ j, part = .copy j ∧ secrets[j] = secrets[i] ∧ secrets[j] ∉ done) :
    part.shown secrets (secrets[i] :: done) = part.shown secrets done := by
  cases part with
  | segment text => rfl
  | copy j =>
    by_cases hmem : secrets[j] ∈ done
    · rw [shown_of_mem hmem, shown_of_mem (List.mem_cons_of_mem _ hmem)]
    · have hne : secrets[j] ≠ secrets[i] := fun heq => h ⟨j, rfl, heq, hmem⟩
      have hmem' : secrets[j] ∉ secrets[i] :: done := by
        rw [List.mem_cons, not_or]
        exact ⟨hne, hmem⟩
      rw [shown_of_not_mem hmem, shown_of_not_mem hmem']

/-- **Masking one more secret masks its copies and changes nothing else.** -/
theorem replaceAll_shownText (hsecrets : Maskable secrets) (hconfined : Confined secrets parts)
    (hdone : ∀ j : Fin n,
      secrets[j] ∉ done → secrets[j].utf8ByteSize ≤ secrets[i].utf8ByteSize) :
    Text.replaceAll secrets[i].toList (mask secrets[i].toList) (shownText secrets done parts) =
      shownText secrets (secrets[i] :: done) parts := by
  have hrest : ∀ rest front, parts = front ++ rest →
      Text.replaceAll secrets[i].toList (mask secrets[i].toList) (shownText secrets done rest) =
        shownText secrets (secrets[i] :: done) rest := by
    intro rest
    induction rest with
    | nil => intro _ _; rfl
    | cons part rest ih =>
      intro front hparts
      have hnext := ih (front ++ [part]) (by rw [hparts]; simp)
      rw [shownText_cons, shownText_cons, ← hnext]
      by_cases hown : ∃ j, part = .copy j ∧ secrets[j] = secrets[i] ∧ secrets[j] ∉ done
      · obtain ⟨j, rfl, hj, hnot⟩ := hown
        have hne : secrets[i].toList ≠ [] := by
          rw [← List.length_pos_iff, String.length_toList]
          exact Nat.lt_of_le_of_lt (Nat.zero_le 3) (hsecrets.long i)
        rw [Part.shown_of_not_mem hnot, Part.shown_of_mem (hj ▸ List.mem_cons_self), hj]
        exact Text.replaceAll_piece_append hne _ _
      · rw [Part.shown_cons_of_not_own hown]
        refine Text.replaceAll_append _ _ ?_
        intro a b hsplit hb
        rcases part.shown_cases secrets done with ⟨j, -, hshown⟩ | ⟨hshown, hnot⟩
        · rw [hshown] at hsplit
          exact not_isPrefix_of_mask (hsecrets.starless i)
            (by rw [String.length_toList]; exact hsecrets.long i) hsplit hb
        · rw [hshown] at hsplit
          refine not_isPrefix_of_text hsecrets hconfined hdone hparts ?_ hsplit hb
          intro j hj
          exact ⟨fun heq => hown ⟨j, hj, heq, hnot j hj⟩, hnot j hj⟩
  exact hrest parts [] rfl

/-- Masking what is left to be masked, longer secrets first, masks every copy. -/
theorem foldl_shownText (hsecrets : Maskable secrets) (hconfined : Confined secrets parts)
    {todo : List String} (hsorted : todo.Pairwise fun a b => b.utf8ByteSize ≤ a.utf8ByteSize)
    (hknown : ∀ secret ∈ todo, ∃ i : Fin n, secrets[i] = secret)
    (hall : ∀ i : Fin n, secrets[i] ∈ done ∨ secrets[i] ∈ todo) :
    todo.foldl (fun text secret => Text.replaceAll secret.toList (mask secret.toList) text)
      (shownText secrets done parts) = (maskedText secrets parts).toList := by
  induction todo generalizing done with
  | nil =>
    have hdone : ∀ i : Fin n, secrets[i] ∈ done := fun i =>
      (hall i).resolve_right List.not_mem_nil
    exact shownText_of_forall_mem hdone parts
  | cons secret todo ih =>
    obtain ⟨hlongest, htodo⟩ := List.pairwise_cons.mp hsorted
    obtain ⟨⟨i, rfl⟩, hothers⟩ := List.forall_mem_cons.mp hknown
    have hdone : ∀ j : Fin n, secrets[j] ∉ done →
        secrets[j].utf8ByteSize ≤ secrets[i].utf8ByteSize := by
      intro j hj
      rcases List.mem_cons.mp ((hall j).resolve_left hj) with heq | hmem
      · exact Nat.le_of_eq (congrArg String.utf8ByteSize heq)
      · exact hlongest _ hmem
    rw [List.foldl_cons, replaceAll_shownText hsecrets hconfined hdone]
    refine ih htodo hothers fun j => ?_
    rcases hall j with hmem | hmem
    · exact .inl (List.mem_cons_of_mem _ hmem)
    · rcases List.mem_cons.mp hmem with heq | hmem
      · exact .inl (List.mem_cons.mpr (.inl heq))
      · exact .inr hmem

theorem redact_textOf (hsecrets : Maskable secrets) (hconfined : Confined secrets parts) :
    (ofSecrets secrets.toList).redact (textOf secrets parts) = maskedText secrets parts := by
  have hall : ∀ i : Fin n, secrets[i] ∈ (ofSecrets secrets.toList).secrets := fun i =>
    mem_secrets_of_visible_lt (Vector.mem_toList_iff.mpr (Vector.getElem_mem i.isLt))
      (hsecrets.long i)
  have hknown : ∀ secret ∈ (ofSecrets secrets.toList).secrets,
      ∃ i : Fin n, secrets[i] = secret := by
    intro secret hmem
    have hgiven := Vector.mem_toList_iff.mp (mem_secrets_ofSecrets.mp hmem).1
    obtain ⟨i, hi, heq⟩ := Vector.getElem_of_mem hgiven
    exact ⟨⟨i, hi⟩, heq⟩
  rw [redact, ← shownText_nil, foldl_shownText hsecrets hconfined (pairwise_secrets_ofSecrets _)
    hknown fun i => .inr (hall i), String.ofList_toList]

theorem maskedText_congr {others : Vector String n}
    (h : ∀ i : Fin n, others[i].toList.take 3 = secrets[i].toList.take 3) (parts : List (Part n)) :
    maskedText others parts = maskedText secrets parts := by
  have hpart : Part.masked others = Part.masked secrets := by
    funext part
    cases part with
    | segment text => rfl
    | copy i => rw [Part.masked, Part.masked, h i]
  rw [maskedText, maskedText, hpart]

end

/--
**Masking is exact.** If secrets occur in a text only inside of the copies that were put into it,
masking turns each copy into its own first three characters and three stars and changes nothing
else, in whatever order the secrets are given, whether some are given twice, and whether some are
held by others. Of the secrets, the masked text therefore tells no more than their first three
characters.
-/
theorem masked_exactly (hsecrets : Maskable secrets) {parts : List (Part n)}
    (hconfined : Confined secrets parts) :
    (ofSecrets secrets.toList).redact (textOf secrets parts) = maskedText secrets parts ∧
    ∀ others : Vector String n, Maskable others → Confined others parts →
      (∀ i : Fin n, others[i].toList.take 3 = secrets[i].toList.take 3) →
        (ofSecrets others.toList).redact (textOf others parts) =
          (ofSecrets secrets.toList).redact (textOf secrets parts) := by
  refine ⟨redact_textOf hsecrets hconfined, ?_⟩
  intro others hothers hconfined' hsame
  rw [redact_textOf hsecrets hconfined, redact_textOf hothers hconfined', maskedText_congr hsame]

/-- A secret that is given twice and that another one holds. -/
def nestedSecrets : Vector String 4 := #v["abcd", "xabcdy", "äöüßz", "abcd"]

/-- Other secrets that begin in the same way. -/
def similarSecrets : Vector String 4 := #v["abc99", "xabc99!", "äöüüü", "abc0"]

/-- A text with a copy of each, some of them without anything in between. -/
def nestedParts : List (Part 4) :=
  [.segment "v=", .copy 1, .segment " ab*", .copy 0, .copy 2, .copy 3, .segment "."]

theorem masked_exactly_nestedParts :
    Maskable nestedSecrets ∧ Confined nestedSecrets nestedParts ∧
    Maskable similarSecrets ∧ Confined similarSecrets nestedParts ∧
    (∀ i : Fin 4, similarSecrets[i].toList.take 3 = nestedSecrets[i].toList.take 3) ∧
    textOf nestedSecrets nestedParts = "v=xabcdy ab*abcdäöüßzabcd." ∧
    textOf similarSecrets nestedParts = "v=xabc99! ab*abc99äöüüüabc0." ∧
    (ofSecrets nestedSecrets.toList).redact "v=xabcdy ab*abcdäöüßzabcd." =
      "v=xab*** ab*abc***äöü***abc***." ∧
    (ofSecrets similarSecrets.toList).redact "v=xabc99! ab*abc99äöüüüabc0." =
      (ofSecrets nestedSecrets.toList).redact "v=xabcdy ab*abcdäöüßzabcd." := by
  have hnested : Maskable nestedSecrets := ⟨by decide +kernel, by decide +kernel⟩
  have hsimilar : Maskable similarSecrets := ⟨by decide +kernel, by decide +kernel⟩
  have hconfined : Confined nestedSecrets nestedParts := isConfined_iff.mp (by decide +kernel)
  have hconfined' : Confined similarSecrets nestedParts := isConfined_iff.mp (by decide +kernel)
  have hsame : ∀ i : Fin 4, similarSecrets[i].toList.take 3 = nestedSecrets[i].toList.take 3 := by
    decide +kernel
  have htext : textOf nestedSecrets nestedParts = "v=xabcdy ab*abcdäöüßzabcd." := by
    decide +kernel
  have htext' : textOf similarSecrets nestedParts = "v=xabc99! ab*abc99äöüüüabc0." := by
    decide +kernel
  have hmasked : maskedText nestedSecrets nestedParts = "v=xab*** ab*abc***äöü***abc***." := by
    decide +kernel
  obtain ⟨hexact, hothers⟩ := masked_exactly hnested hconfined
  have hlike := hothers similarSecrets hsimilar hconfined' hsame
  rw [htext, hmasked] at hexact
  rw [htext, htext'] at hlike
  exact ⟨hnested, hconfined, hsimilar, hconfined', hsame, htext, htext', hexact, hlike⟩

end

end Provisioner.Redactor
