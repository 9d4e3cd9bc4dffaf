import Provisioner.Proofs.Json.Lexing

/-!
# A written value holds no control characters

Such characters are escaped inside strings, and no other token has any. So whatever the texts in a
value hold, the value as it is written can be an argument of a program.
-/

namespace Provisioner.Json

/-- A text that holds no control character. -/
def Printable (text : List Char) : Prop := ∀ c ∈ text, 0x20 ≤ c.toNat

instance (text : List Char) : Decidable (Printable text) :=
  List.decidableBAll (fun c : Char => 0x20 ≤ c.toNat) text

theorem printable_nil : Printable [] := List.forall_mem_nil _

theorem printable_cons {c : Char} {text : List Char} :
    Printable (c :: text) ↔ 0x20 ≤ c.toNat ∧ Printable text := List.forall_mem_cons

theorem printable_append {a b : List Char} : Printable (a ++ b) ↔ Printable a ∧ Printable b :=
  List.forall_mem_append

namespace Token

theorem le_toNat_digitChar {d : Nat} (h : d < 16) : 0x20 ≤ (Nat.digitChar d).toNat := by
  interval_cases d <;> decide

/-- **However a character is escaped, there is no control character in what is written for it.** -/
theorem printable_escape (c : Char) : Printable (escape c) := by
  unfold escape
  iterate 7 split; · decide
  split
  · next hcontrol =>
    have hzeros : Printable ['\\', 'u', '0', '0'] := by decide
    have hhigh := le_toNat_digitChar (d := c.toNat / 16) (by omega)
    have hlow := le_toNat_digitChar (d := c.toNat % 16) (by omega)
    have hdigits := printable_cons.mpr ⟨hhigh, printable_cons.mpr ⟨hlow, printable_nil⟩⟩
    exact printable_append.mpr ⟨hzeros, hdigits⟩
  · next hcontrol => exact printable_cons.mpr ⟨Nat.not_lt.mp hcontrol, printable_nil⟩

theorem printable_string (text : String) : Printable (string (some text)).chars := by
  have hquote : Printable ['"'] := by decide
  have hescaped : Printable (text.toList.flatMap escape) := by
    intro written hwritten
    obtain ⟨c, -, hc⟩ := List.mem_flatMap.mp hwritten
    exact printable_escape c written hc
  exact printable_append.mpr ⟨printable_append.mpr ⟨hquote, hescaped⟩, hquote⟩

theorem printable_ofInt (value : Int) : Printable (number (.ofInt value)).chars := by
  have hdigits : Printable (Nat.toDigits 10 value.natAbs) := by
    intro c hc
    have hdigit := Number.isDigit_of_mem_toDigits c hc
    simp only [Number.isDigit, Bool.and_eq_true, decide_eq_true_eq] at hdigit
    have hzero : '0'.toNat ≤ c.toNat := hdigit.1
    exact Nat.le_trans (by decide) hzero
  show Printable (Number.ofInt value).chars
  unfold Number.ofInt
  simp only
  split
  · exact printable_cons.mpr ⟨by decide, hdigits⟩
  · exact hdigits

end Token

namespace Value

/-- The items of an array are written without control characters if each of them is. -/
theorem printable_itemTokens {items : List Value} (h : ∀ item ∈ items, Printable item.chars) :
    Printable ((itemTokens items).flatMap Token.chars) := by
  induction items with
  | nil => decide
  | cons item items ih =>
    obtain ⟨hitem, hitems⟩ := List.forall_mem_cons.mp h
    cases items with
    | nil =>
      rw [itemTokens_singleton, List.flatMap_append, printable_append]
      exact ⟨hitem, by decide⟩
    | cons next items =>
      rw [itemTokens_cons_cons, List.flatMap_append, List.flatMap_cons, printable_append,
        printable_append]
      exact ⟨hitem, by decide, ih hitems⟩

/-- The members of a record are written so if the value of each of them is. -/
theorem printable_recordTokens {members : List (String × Value)}
    (h : ∀ m ∈ members, Printable m.2.chars) :
    Printable ((recordTokens members).flatMap Token.chars) := by
  induction members with
  | nil => decide
  | cons m members ih =>
    obtain ⟨name, value⟩ := m
    obtain ⟨hvalue, hmembers⟩ := List.forall_mem_cons.mp h
    have hname := Token.printable_string name
    cases members with
    | nil =>
      rw [recordTokens_singleton]
      simp only [List.flatMap_cons, List.flatMap_append, printable_append]
      exact ⟨hname, by decide, hvalue, by decide⟩
    | cons next members =>
      rw [recordTokens_cons_cons]
      simp only [List.flatMap_cons, List.flatMap_append, printable_append]
      exact ⟨hname, by decide, hvalue, by decide, ih hmembers⟩

/-- **What the service writes holds no control character.** -/
theorem Plain.printable {depth : Nat} {v : Value} (h : v.Plain depth) : Printable v.chars := by
  unfold chars
  induction h with
  | null => decide
  | bool value => cases value <;> decide
  | int value _ =>
    show Printable ((Token.number (.ofInt value)).chars ++ [])
    rw [List.append_nil]
    exact Token.printable_ofInt value
  | text value =>
    show Printable ((Token.string (some value)).chars ++ [])
    rw [List.append_nil]
    exact Token.printable_string value
  | array items _ ih =>
    rw [tokens, List.flatMap_cons, printable_append]
    exact ⟨by decide, printable_itemTokens ih⟩
  | record members _ ih =>
    rw [tokens_record, List.flatMap_cons, printable_append]
    exact ⟨by decide, printable_recordTokens ih⟩

end Value

end Provisioner.Json
