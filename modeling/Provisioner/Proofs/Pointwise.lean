import Mathlib.Data.List.Forall2

/-!
# Lists related member by member

What is kept beside each member of a list stays beside it when both lists are changed in the same
place.
-/

namespace Provisioner

variable {α β : Type} {R : α → β → Prop} {l : List α} {k : List β} {a : α} {b : β} {n : Nat}

theorem forall₂_concat (h : List.Forall₂ R l k) (hab : R a b) :
    List.Forall₂ R (l ++ [a]) (k ++ [b]) := by
  induction h with
  | nil => exact .cons hab .nil
  | cons hhead _ ih => exact .cons hhead ih

theorem forall₂_set (h : List.Forall₂ R l k) (hab : R a b) (n : Nat) :
    List.Forall₂ R (l.set n a) (k.set n b) := by
  induction h generalizing n with
  | nil => exact .nil
  | cons hhead htail ih =>
    cases n with
    | zero => exact .cons hab htail
    | succ n => exact .cons hhead (ih n)

/-- A member changes and what stands beside it stays. -/
theorem forall₂_set_left (h : List.Forall₂ R l k) (hb : k[n]? = some b) (hab : R a b) :
    List.Forall₂ R (l.set n a) k := by
  have hset := forall₂_set h hab n
  obtain ⟨hn, hget⟩ := List.getElem?_eq_some_iff.mp hb
  rwa [← hget, List.set_getElem_self] at hset

theorem forall₂_eraseIdx (h : List.Forall₂ R l k) (n : Nat) :
    List.Forall₂ R (l.eraseIdx n) (k.eraseIdx n) := by
  induction h generalizing n with
  | nil => exact .nil
  | cons hhead htail ih =>
    cases n with
    | zero => exact htail
    | succ n => exact .cons hhead (ih n)

/-- Beside a member stands one that is related to it. -/
theorem exists_of_forall₂ (h : List.Forall₂ R l k) (hn : l[n]? = some a) :
    ∃ b, k[n]? = some b ∧ R a b := by
  induction h generalizing n with
  | nil => cases hn
  | cons hhead _ ih =>
    cases n with
    | zero =>
      cases hn
      exact ⟨_, rfl, hhead⟩
    | succ n => exact ih hn

/-! ## Two lists, place by place -/

/-- Two members in one place of lists that have grown by one each. -/
theorem getElem?_concat_cases {a' : α} {b' : β} (hlength : l.length = k.length)
    (ha : (l ++ [a'])[n]? = some a) (hb : (k ++ [b'])[n]? = some b) :
    (l[n]? = some a ∧ k[n]? = some b) ∨ (a = a' ∧ b = b') := by
  by_cases hn : n < l.length
  · rw [List.getElem?_append_left hn] at ha
    rw [List.getElem?_append_left (hlength ▸ hn)] at hb
    exact Or.inl ⟨ha, hb⟩
  · rw [List.getElem?_append_right (by omega), List.getElem?_singleton] at ha hb
    exact Or.inr ⟨(Option.ite_some_none_eq_some.mp ha).2.symm,
      (Option.ite_some_none_eq_some.mp hb).2.symm⟩

/-- A member of a list of which one was replaced. -/
theorem getElem?_set_cases {m : Nat} {a' : α} (h : (l.set n a')[m]? = some a) :
    (m = n ∧ a = a') ∨ (m ≠ n ∧ l[m]? = some a) := by
  by_cases hm : m = n
  · subst hm
    rw [List.getElem?_set_self'] at h
    obtain ⟨_, -, rfl⟩ := Option.map_eq_some_iff.mp h
    exact Or.inl ⟨rfl, rfl⟩
  · rw [List.getElem?_set_ne (Ne.symm hm)] at h
    exact Or.inr ⟨hm, h⟩

end Provisioner
