/-!
# Cutting a text at its line feeds

The lines of a text, said by what they are: the pieces between its line feeds, each without the
return at its end. The piece behind the last line feed counts unless it is empty. Characters and
bytes are cut in the same way, so the two ends of a line are parameters.

Cutting loses nothing but ends of lines (`filter_flatten_cutLines`).
-/

namespace Provisioner.Text

variable {α β : Type} [DecidableEq α] [DecidableEq β]

/-- A list without `x` at its end, if it is there. -/
def withoutFinal (x : α) (items : List α) : List α :=
  if items.getLast? = some x then items.dropLast else items

/-- The lines of a text whose lines end at `feed`, or at `ret` and `feed`. -/
def cutLines (feed ret : α) (text : List α) : List (List α) :=
  (withoutFinal [] (text.splitOn feed)).map (withoutFinal ret)

/-! ## What stands at the end of a list -/

theorem withoutFinal_concat (x : α) (items : List α) : withoutFinal x (items ++ [x]) = items := by
  simp [withoutFinal]

theorem withoutFinal_concat_of_ne {x y : α} (h : y ≠ x) (items : List α) :
    withoutFinal x (items ++ [y]) = items ++ [y] := by
  simp [withoutFinal, h]

/-- What stands in front of another character stays as it is. -/
theorem withoutFinal_append_cons_of_ne {x y : α} (h : y ≠ x) (front items : List α) :
    withoutFinal x (front ++ y :: items) = front ++ y :: withoutFinal x items := by
  rcases List.eq_nil_or_concat items with rfl | ⟨init, last, rfl⟩
  · exact withoutFinal_concat_of_ne h front
  · rw [List.concat_eq_append, ← List.cons_append, ← List.append_assoc]
    by_cases hlast : last = x
    · rw [hlast, withoutFinal_concat, withoutFinal_concat]
    · rw [withoutFinal_concat_of_ne hlast, withoutFinal_concat_of_ne hlast, List.append_assoc,
        List.cons_append]

/-- There is something at the end or there is not. -/
theorem withoutFinal_cases (x : α) (items : List α) :
    items = withoutFinal x items ++ [x] ∨ items = withoutFinal x items := by
  rcases List.eq_nil_or_concat items with rfl | ⟨front, last, rfl⟩
  · exact .inr rfl
  · rw [List.concat_eq_append]
    by_cases h : last = x
    · subst h
      exact .inl (by rw [withoutFinal_concat])
    · exact .inr (withoutFinal_concat_of_ne h front).symm

theorem withoutFinal_isPrefix (x : α) (items : List α) : withoutFinal x items <+: items := by
  rcases withoutFinal_cases x items with h | h
  · exact ⟨[x], h.symm⟩
  · exact ⟨[], by rw [List.append_nil, ← h]⟩

/-- A translation that takes `y` for `x` and for nothing else keeps the end of a list in step. -/
theorem withoutFinal_map {f : α → β} {x : α} {y : β} (hf : ∀ a, f a = y ↔ a = x) (items : List α) :
    withoutFinal y (items.map f) = (withoutFinal x items).map f := by
  rcases List.eq_nil_or_concat items with rfl | ⟨front, last, rfl⟩
  · rfl
  · rw [List.concat_eq_append, List.map_append, List.map_singleton]
    by_cases h : last = x
    · subst h
      rw [(hf last).mpr rfl, withoutFinal_concat, withoutFinal_concat]
    · rw [withoutFinal_concat_of_ne (mt (hf last).mp h), withoutFinal_concat_of_ne h,
        List.map_append, List.map_singleton]

/-! ## Pieces between line feeds -/

/-- A piece holds no line feed, and it stands in the text. -/
theorem of_mem_splitOn {feed : α} {piece text : List α} (h : piece ∈ text.splitOn feed) :
    feed ∉ piece ∧ piece <:+: text := by
  induction hlength : text.length using Nat.strongRecOn generalizing text with
  | _ n ih =>
    by_cases hfeed : feed ∈ text
    · obtain ⟨front, rest, rfl, hfront⟩ := List.eq_append_cons_of_mem hfeed
      rw [List.splitOn_append_cons_self_of_not_mem hfront, List.mem_cons] at h
      rcases h with rfl | h
      · exact ⟨hfront, (List.prefix_append piece _).isInfix⟩
      · obtain ⟨hpiece, hrest⟩ := ih rest.length (by simp [← hlength]; omega) h rfl
        exact ⟨hpiece, hrest.trans ((List.suffix_cons feed rest).isInfix.trans
          (List.suffix_append front _).isInfix)⟩
    · rw [List.splitOn_eq_singleton hfeed, List.mem_singleton] at h
      rw [h]
      exact ⟨hfeed, List.infix_rfl⟩

theorem not_mem_of_mem_cutLines {feed ret : α} {line text : List α}
    (h : line ∈ cutLines feed ret text) : feed ∉ line := by
  obtain ⟨piece, hpiece, rfl⟩ := List.mem_map.mp h
  have hmem := (withoutFinal_isPrefix [] _).subset hpiece
  exact fun hfeed => (of_mem_splitOn hmem).1 ((withoutFinal_isPrefix ret piece).subset hfeed)

/-! ## What cutting loses -/

theorem filter_withoutFinal {p : α → Bool} {x : α} (hx : p x = false) (items : List α) :
    (withoutFinal x items).filter p = items.filter p := by
  rcases withoutFinal_cases x items with h | h
  · conv => rhs; rw [h]
    simp [hx]
  · rw [← h]

theorem flatten_withoutFinal_nil (pieces : List (List α)) :
    (withoutFinal [] pieces).flatten = pieces.flatten := by
  rcases withoutFinal_cases [] pieces with h | h
  · conv => rhs; rw [h]
    simp
  · rw [← h]

theorem filter_flatten_splitOn {p : α → Bool} {feed : α} (hfeed : p feed = false) (text : List α) :
    (text.splitOn feed).flatten.filter p = text.filter p := by
  induction text with
  | nil => rfl
  | cons c text ih =>
    rw [List.splitOn_cons_eq_if_modifyHead]
    split
    · next h =>
      obtain rfl := eq_of_beq h
      rw [List.flatten_cons, List.nil_append, ih, List.filter_cons_of_neg (by simp [hfeed])]
    · obtain ⟨piece, pieces, hcut⟩ :=
        List.exists_cons_of_ne_nil (List.splitOn_ne_nil feed text)
      rw [hcut] at ih ⊢
      rw [List.modifyHead_cons, List.flatten_cons, List.cons_append, ← List.flatten_cons,
        List.filter_cons, List.filter_cons, ih]

/-- Only line feeds and returns are lost, and nothing is added. -/
theorem filter_flatten_cutLines {p : α → Bool} {feed ret : α} (hfeed : p feed = false)
    (hret : p ret = false) (text : List α) :
    (cutLines feed ret text).flatten.filter p = text.filter p := by
  have hline : List.filter p ∘ withoutFinal ret = List.filter p :=
    funext (filter_withoutFinal hret)
  rw [cutLines, List.filter_flatten, List.map_map, hline, ← List.filter_flatten,
    flatten_withoutFinal_nil, filter_flatten_splitOn hfeed]

end Provisioner.Text
