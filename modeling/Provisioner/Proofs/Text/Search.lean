import Provisioner.Text.Search

/-!
# What occurs in a text after a replacement

A mask is a beginning of the piece that it replaces, closed by a character `stop`. Text without
`stop` therefore never reaches from one side of a mask to the other: what occurs after the
replacement occurred before it, at the same end of the text if at any, and the piece itself is gone.
-/

namespace Provisioner.Text

/-! ## Occurrences -/

theorem isPrefixOf_of_afterStart? {piece text : List Char}
    (h : (afterStart? piece text).isSome = true) : piece <+: text := by
  obtain ⟨rest, hrest⟩ := Option.isSome_iff_exists.mp h
  exact ⟨rest, (afterStart?_eq_some_iff.mp hrest).symm⟩

theorem afterStart?_of_isPrefixOf {piece text : List Char} (h : piece <+: text) :
    (afterStart? piece text).isSome = true := by
  obtain ⟨rest, rfl⟩ := h
  exact Option.isSome_iff_exists.mpr ⟨rest, afterStart?_eq_some_iff.mpr rfl⟩

theorem occursIn_iff {piece text : List Char} : occursIn piece text = true ↔ piece <:+: text := by
  induction text with
  | nil =>
    rw [occursIn, after?, List.infix_nil]
    constructor
    · intro h
      exact List.prefix_nil.mp (isPrefixOf_of_afterStart? h)
    · rintro rfl
      rfl
  | cons c text ih =>
    rw [List.infix_cons_iff, ← ih]
    simp only [occursIn, after?]
    split
    · next rest hrest =>
      have hprefix : piece <+: c :: text := isPrefixOf_of_afterStart? (by rw [hrest]; rfl)
      exact ⟨fun _ => .inl hprefix, fun _ => rfl⟩
    · next hnone =>
      constructor
      · exact .inr
      · rintro (h | h)
        · have := afterStart?_of_isPrefixOf h
          rw [hnone] at this
          exact absurd this (by decide)
        · exact h

theorem after?_eq_none_iff {piece text : List Char} :
    after? piece text = none ↔ ¬piece <:+: text := by
  rw [← occursIn_iff, occursIn, Option.not_isSome_iff_eq_none]

/-! ## The first occurrence -/

/-- Whether `piece` does not occur in `front ++ piece` in front of where it closes it. -/
def FirstBehind (piece front : List Char) : Prop :=
  ∀ before behind, front ++ piece = before ++ piece ++ behind → front.length ≤ before.length

theorem FirstBehind.of_cons {piece front : List Char} {c : Char}
    (h : FirstBehind piece (c :: front)) : FirstBehind piece front := by
  intro before behind hsplit
  have hlength := h (c :: before) behind (by rw [List.cons_append, hsplit]; rfl)
  rw [List.length_cons, List.length_cons] at hlength
  omega

/-- Behind a first occurrence, the beginning of the text holds none. -/
theorem FirstBehind.not_isPrefix {piece front rest : List Char} {c : Char}
    (h : FirstBehind piece (c :: front)) : ¬piece <+: c :: front ++ (piece ++ rest) := by
  intro hprefix
  rw [← List.append_assoc] at hprefix
  have hshort : piece <+: c :: front ++ piece :=
    List.prefix_of_prefix_length_le hprefix (List.prefix_append _ rest) (by simp; omega)
  obtain ⟨behind, hbehind⟩ := hshort
  have hlength := h [] behind hbehind.symm
  simp at hlength

theorem after?_append {piece rest : List Char} : after? piece (piece ++ rest) = some rest := by
  have hstart : afterStart? piece (piece ++ rest) = some rest := afterStart?_eq_some_iff.mpr rfl
  cases htext : piece ++ rest with
  | nil => rwa [htext] at hstart
  | cons c text =>
    rw [htext] at hstart
    rw [after?, hstart]

theorem after?_of_not_isPrefix {piece text : List Char} {c : Char} (h : ¬piece <+: c :: text) :
    after? piece (c :: text) = after? piece text := by
  have hstart : afterStart? piece (c :: text) = none := by
    rw [← Option.not_isSome_iff_eq_none]
    exact fun hsome => h (isPrefixOf_of_afterStart? hsome)
  rw [after?, hstart]

/-- What `after?` gives stands behind the first occurrence. -/
theorem after?_eq_some_iff {piece text rest : List Char} :
    after? piece text = some rest ↔
      ∃ front, text = front ++ (piece ++ rest) ∧ FirstBehind piece front := by
  constructor
  · intro h
    induction text with
    | nil =>
      have hnil : [] = piece ++ rest := afterStart?_eq_some_iff.mp h
      exact ⟨[], hnil, fun _ _ _ => Nat.zero_le _⟩
    | cons c text ih =>
      by_cases hstart : piece <+: c :: text
      · obtain ⟨behind, hbehind⟩ := hstart
        rw [← hbehind, after?_append] at h
        obtain rfl := Option.some.inj h
        exact ⟨[], hbehind.symm, fun _ _ _ => Nat.zero_le _⟩
      · rw [after?_of_not_isPrefix hstart] at h
        obtain ⟨front, rfl, hfirst⟩ := ih h
        refine ⟨c :: front, rfl, ?_⟩
        intro before behind hsplit
        cases before with
        | nil =>
          have hwhole : piece ++ (behind ++ rest) = c :: (front ++ (piece ++ rest)) := by
            rw [← List.append_assoc, ← List.append_assoc, ← List.cons_append, ← List.cons_append,
              hsplit, List.nil_append]
          exact absurd ⟨_, hwhole⟩ hstart
        | cons d before =>
          obtain ⟨-, hsplit⟩ := List.cons.inj hsplit
          exact Nat.succ_le_succ (hfirst before behind hsplit)
  · rintro ⟨front, rfl, hfirst⟩
    induction front with
    | nil => exact after?_append
    | cons c front ih =>
      have hstart : ¬piece <+: c :: (front ++ (piece ++ rest)) := hfirst.not_isPrefix
      rw [List.cons_append, after?_of_not_isPrefix hstart, ih hfirst.of_cons]

theorem firstBehind_iff {piece front : List Char} :
    FirstBehind piece front ↔ after? piece (front ++ piece) = some [] := by
  rw [after?_eq_some_iff]
  constructor
  · intro h
    exact ⟨front, by rw [List.append_nil], h⟩
  · rintro ⟨front', hsplit, hfirst⟩
    rw [List.append_nil] at hsplit
    rwa [List.append_cancel_right hsplit]

instance (piece front : List Char) : Decidable (FirstBehind piece front) :=
  decidable_of_iff _ firstBehind_iff.symm

/-! ## Text that cannot reach over a character -/

variable {stop : Char} {q a b : List Char}

theorem isPrefixOf_of_stop (hq : stop ∉ q) (h : q <+: a ++ stop :: b) : q <+: a := by
  rcases List.prefix_or_prefix_of_prefix h (List.prefix_append a _) with h' | ⟨rest, rfl⟩
  · exact h'
  · have hrest : rest <+: stop :: b := (List.prefix_append_right_inj a).mp h
    cases rest with
    | nil => simp
    | cons c rest =>
      obtain ⟨rfl, -⟩ := List.cons_prefix_cons.mp hrest
      simp at hq

theorem isInfixOf_of_stop (hq : stop ∉ q) (h : q <:+: a ++ stop :: b) :
    q <:+: a ∨ q <:+: b := by
  induction a with
  | nil =>
    rcases List.infix_cons_iff.mp h with h | h
    · exact .inl (isPrefixOf_of_stop hq (a := []) h).isInfix
    · exact .inr h
  | cons c a ih =>
    rcases List.infix_cons_iff.mp h with h | h
    · exact .inl (isPrefixOf_of_stop hq h).isInfix
    · rcases ih h with h | h
      · exact .inl (h.trans (List.infix_cons_iff.mpr (.inr List.infix_rfl)))
      · exact .inr h

/-- The same for several of these characters in a row. -/
theorem isInfixOf_of_stops {closing : List Char} (hclosing : ∀ c ∈ closing, c = stop)
    (hq : stop ∉ q) (h : q <:+: a ++ stop :: (closing ++ b)) : q <:+: a ∨ q <:+: b := by
  induction closing with
  | nil => exact isInfixOf_of_stop hq h
  | cons c closing ih =>
    obtain ⟨rfl, hrest⟩ := List.forall_mem_cons.mp hclosing
    rcases isInfixOf_of_stop hq h with h | h
    · exact .inl h
    · rcases isInfixOf_of_stop hq (a := []) h with h | h
      · exact .inl (h.trans List.nil_infix)
      · exact ih hrest (h.trans ⟨a ++ [c], [], by simp⟩)

/-- What cannot reach over a character stands in one of the texts that it joins. -/
theorem exists_of_isInfixOf_intercalate {texts : List (List Char)} (hq : stop ∉ q) (hne : q ≠ [])
    (h : q <:+: [stop].intercalate texts) : ∃ text ∈ texts, q <:+: text := by
  induction texts with
  | nil => exact absurd (List.infix_nil.mp h) hne
  | cons text texts ih =>
    cases texts with
    | nil =>
      rw [List.intercalate_singleton] at h
      exact ⟨text, List.mem_singleton_self text, h⟩
    | cons next texts =>
      rw [List.intercalate_cons_cons, List.append_assoc] at h
      rcases isInfixOf_of_stop hq h with hfirst | hrest
      · exact ⟨text, List.mem_cons_self, hfirst⟩
      · obtain ⟨later, hlater, hoccurs⟩ := ih hrest
        exact ⟨later, List.mem_cons_of_mem text hlater, hoccurs⟩

theorem isSuffixOf_of_stop (hq : stop ∉ q) (h : q <:+ a ++ stop :: b) : q <:+ b := by
  rcases List.suffix_or_suffix_of_suffix h (List.suffix_append a (stop :: b)) with h' | h'
  · rcases List.suffix_cons_iff.mp h' with rfl | h'
    · simp at hq
    · exact h'
  · exact absurd (h'.subset List.mem_cons_self) hq

theorem isSuffixOf_of_stops {closing : List Char} (hclosing : ∀ c ∈ closing, c = stop)
    (hq : stop ∉ q) (h : q <:+ a ++ stop :: (closing ++ b)) : q <:+ b := by
  induction closing generalizing a with
  | nil => exact isSuffixOf_of_stop hq h
  | cons c closing ih =>
    obtain ⟨rfl, hrest⟩ := List.forall_mem_cons.mp hclosing
    exact ih hrest (a := []) (isSuffixOf_of_stop hq h)

/-! ## Replacing every occurrence -/

section Replace

variable {piece kept closing : List Char}

theorem replaceFrom_of_isPrefixOf {c : Char} {text mask : List Char}
    (h : piece <+: c :: text) :
    replaceFrom piece mask [] 0 (c :: text) =
      mask ++ replaceFrom piece mask [] (piece.length - 1) text := by
  rw [replaceFrom, if_pos (List.isPrefixOf_iff_prefix.mpr h), replaceFrom_eq_append]
  simp

theorem replaceFrom_of_not_isPrefixOf {c : Char} {text mask : List Char}
    (h : ¬piece <+: c :: text) :
    replaceFrom piece mask [] 0 (c :: text) = c :: replaceFrom piece mask [] 0 text := by
  rw [replaceFrom, if_neg (by rwa [List.isPrefixOf_iff_prefix]), replaceFrom_eq_append]
  simp

/-- A text that does not hold the piece stays as it is. -/
theorem replaceAll_of_not_isInfixOf {text mask : List Char} (h : ¬piece <:+: text) :
    replaceAll piece mask text = text := by
  unfold replaceAll
  induction text with
  | nil => rfl
  | cons c text ih =>
    have hstart : ¬piece <+: c :: text := fun hoccurs => h hoccurs.isInfix
    have hrest : ¬piece <:+: text := fun hoccurs => h (hoccurs.trans (List.infix_cons List.infix_rfl))
    rw [replaceFrom_of_not_isPrefixOf hstart, ih hrest]

/-- Characters of an occurrence that was replaced are passed over. -/
theorem replaceFrom_skip (mask skipped text : List Char) :
    replaceFrom piece mask [] skipped.length (skipped ++ text) =
      replaceFrom piece mask [] 0 text := by
  induction skipped with
  | nil => rfl
  | cons c skipped ih => exact ih

/-- An occurrence at the beginning is replaced. -/
theorem replaceAll_piece_append (hpiece : piece ≠ []) (mask text : List Char) :
    replaceAll piece mask (piece ++ text) = mask ++ replaceAll piece mask text := by
  obtain ⟨c, rest, rfl⟩ := List.exists_cons_of_ne_nil hpiece
  have hstart : c :: rest <+: c :: (rest ++ text) := List.prefix_append (c :: rest) text
  have hlength : (c :: rest).length - 1 = rest.length := by simp
  rw [replaceAll, List.cons_append, replaceFrom_of_isPrefixOf hstart, hlength, replaceFrom_skip,
    replaceAll]

/-- A text in which no occurrence begins stays as it is. -/
theorem replaceAll_append {front : List Char} (mask text : List Char)
    (h : ∀ a b, front = a ++ b → b ≠ [] → ¬piece <+: b ++ text) :
    replaceAll piece mask (front ++ text) = front ++ replaceAll piece mask text := by
  induction front with
  | nil => rfl
  | cons c front ih =>
    have hstart : ¬piece <+: c :: (front ++ text) := h [] (c :: front) rfl (by simp)
    have hrest := ih fun a b hsplit => h (c :: a) b (by rw [hsplit]; rfl)
    rw [replaceAll, List.cons_append, replaceFrom_of_not_isPrefixOf hstart, ← replaceAll, hrest]
    rfl

/-- What a text begins with after a replacement, it began with before. -/
theorem isPrefixOf_of_replaceFrom (hkept : kept <+: piece) {text : List Char} (hq : stop ∉ q)
    (h : q <+: replaceFrom piece (kept ++ stop :: closing) [] 0 text) : q <+: text := by
  induction text generalizing q with
  | nil => simpa [replaceFrom] using h
  | cons c text ih =>
    by_cases hpiece : piece <+: c :: text
    · rw [replaceFrom_of_isPrefixOf hpiece, List.append_assoc] at h
      exact ((isPrefixOf_of_stop hq h).trans hkept).trans hpiece
    · rw [replaceFrom_of_not_isPrefixOf hpiece] at h
      cases q with
      | nil => exact List.nil_prefix
      | cons d q =>
        obtain ⟨rfl, hrest⟩ := List.cons_prefix_cons.mp h
        have hq' : stop ∉ q := fun hmem => hq (List.mem_cons_of_mem _ hmem)
        exact List.cons_prefix_cons.mpr ⟨rfl, ih hq' hrest⟩

/-- A text without `stop` after a replacement is as it was. -/
theorem replaceFrom_of_not_mem {text : List Char}
    (h : stop ∉ replaceFrom piece (kept ++ stop :: closing) [] 0 text) :
    replaceFrom piece (kept ++ stop :: closing) [] 0 text = text := by
  induction text with
  | nil => rfl
  | cons c text ih =>
    by_cases hpiece : piece <+: c :: text
    · rw [replaceFrom_of_isPrefixOf hpiece] at h
      simp at h
    · rw [replaceFrom_of_not_isPrefixOf hpiece] at h ⊢
      rw [ih fun hmem => h (List.mem_cons_of_mem c hmem)]

/-- What a text ends with after a replacement, it ended with before. -/
theorem isSuffixOf_of_replaceFrom (hclosing : ∀ c ∈ closing, c = stop) {text : List Char}
    {skip : Nat} (hq : stop ∉ q)
    (h : q <:+ replaceFrom piece (kept ++ stop :: closing) [] skip text) : q <:+ text := by
  induction text generalizing skip with
  | nil => cases skip <;> simpa [replaceFrom] using h
  | cons c text ih =>
    cases skip with
    | succ skip => exact (ih h).trans (List.suffix_cons c text)
    | zero =>
      by_cases hpiece : piece <+: c :: text
      · rw [replaceFrom_of_isPrefixOf hpiece, List.append_assoc, List.cons_append] at h
        exact (ih (isSuffixOf_of_stops hclosing hq h)).trans (List.suffix_cons c text)
      · rw [replaceFrom_of_not_isPrefixOf hpiece] at h
        rcases List.suffix_cons_iff.mp h with hwhole | h
        -- the whole text is left, so nothing of it was replaced
        · have hleft : replaceFrom piece (kept ++ stop :: closing) [] 0 text = text :=
            replaceFrom_of_not_mem fun hmem => hq (hwhole ▸ List.mem_cons_of_mem c hmem)
          obtain rfl : q = c :: text := hwhole.trans (congrArg (c :: ·) hleft)
          exact List.suffix_rfl
        · exact (ih h).trans (List.suffix_cons c text)

/-- What occurs in a text after a replacement, occurred in it before. -/
theorem isInfixOf_of_replaceFrom (hkept : kept <+: piece) (hclosing : ∀ c ∈ closing, c = stop)
    {text : List Char} {skip : Nat} (hq : stop ∉ q)
    (h : q <:+: replaceFrom piece (kept ++ stop :: closing) [] skip text) : q <:+: text := by
  induction text generalizing skip with
  | nil => cases skip <;> simpa [replaceFrom] using h
  | cons c text ih =>
    cases skip with
    | succ skip => exact (ih h).trans (List.infix_cons List.infix_rfl)
    | zero =>
      by_cases hpiece : piece <+: c :: text
      · rw [replaceFrom_of_isPrefixOf hpiece, List.append_assoc, List.cons_append] at h
        rcases isInfixOf_of_stops hclosing hq h with h | h
        · exact h.trans (hkept.trans hpiece).isInfix
        · exact (ih h).trans (List.infix_cons List.infix_rfl)
      -- an occurrence begins with `c`, which the lemma on beginnings settles, or lies behind it
      · rw [replaceFrom_of_not_isPrefixOf hpiece] at h
        rcases List.infix_cons_iff.mp h with h | h
        · rw [← replaceFrom_of_not_isPrefixOf hpiece] at h
          exact (isPrefixOf_of_replaceFrom hkept hq h).isInfix
        · exact (ih h).trans (List.infix_cons List.infix_rfl)

/-- The replaced piece is gone if it is longer than what its mask shows of it. -/
theorem not_isInfixOf_replaceFrom (hkept : kept <+: piece) (hlt : kept.length < piece.length)
    (hclosing : ∀ c ∈ closing, c = stop) (hpiece : stop ∉ piece) (text : List Char) (skip : Nat) :
    ¬piece <:+: replaceFrom piece (kept ++ stop :: closing) [] skip text := by
  induction text generalizing skip with
  | nil =>
    intro h
    have : piece = [] := by cases skip <;> simpa [replaceFrom] using h
    simp [this] at hlt
  | cons c text ih =>
    cases skip with
    | succ skip => exact ih skip
    | zero =>
      intro h
      by_cases hstart : piece <+: c :: text
      · rw [replaceFrom_of_isPrefixOf hstart, List.append_assoc, List.cons_append] at h
        rcases isInfixOf_of_stops hclosing hpiece h with h | h
        · exact absurd h.length_le (Nat.not_le.mpr hlt)
        · exact ih _ h
      · rw [replaceFrom_of_not_isPrefixOf hstart] at h
        rcases List.infix_cons_iff.mp h with h | h
        · rw [← replaceFrom_of_not_isPrefixOf hstart] at h
          exact hstart (isPrefixOf_of_replaceFrom hkept hpiece h)
        · exact ih 0 h

end Replace

end Provisioner.Text
