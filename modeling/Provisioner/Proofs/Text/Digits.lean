import Mathlib.Data.Nat.Digits.Defs
import Mathlib.Tactic.IntervalCases
import Provisioner.Text.Digits

/-!
# Decimal digits

The digits of a number are read back as that number, also as a signed one of 64 bits.
-/

namespace Provisioner.Text

/-- How a digit is recognised and what it is worth. -/
theorem digit?_of_isDigit {c : Char} (h : c.isDigit = true) :
    digit? c = some (c.toNat - '0'.toNat) := by
  simp only [Char.isDigit, Bool.and_eq_true, decide_eq_true_eq] at h
  exact if_pos h

theorem digitsFrom?_eq {text : List Char} (h : ∀ c ∈ text, c.isDigit = true) (value : Nat) :
    digitsFrom? value text = some (Nat.ofDigitChars 10 text value) := by
  induction text generalizing value with
  | nil => rfl
  | cons c text ih =>
    simp only [List.mem_cons, forall_eq_or_imp] at h
    simp only [digitsFrom?, digit?_of_isDigit h.1, ih h.2, Nat.ofDigitChars_eq_foldl,
      List.foldl_cons, Nat.mul_comm]

theorem isDigit_of_mem_toDigits {n : Nat} : ∀ c ∈ Nat.toDigits 10 n, c.isDigit = true :=
  fun _ => Nat.isDigit_of_mem_toDigits (by decide) (by decide)

/-- The digits of a number are read back as that number. -/
theorem digits?_toDigits (n : Nat) : digits? (Nat.toDigits 10 n) = some n := by
  have h := digitsFrom?_eq (isDigit_of_mem_toDigits (n := n)) 0
  rw [Nat.ofDigitChars_toDigits (by decide) (by decide)] at h
  cases hd : Nat.toDigits 10 n with
  | nil => exact absurd hd Nat.toDigits_ne_nil
  | cons c text => rw [← h, hd]; rfl

/-- A number starts with a digit, which is a zero in `0` alone. -/
theorem exists_toDigits_eq_cons (n : Nat) :
    ∃ c text, Nat.toDigits 10 n = c :: text ∧ c.isDigit = true ∧ (c = '0' → n = 0) := by
  induction n using Nat.strongRecOn with
  | ind n ih =>
    by_cases hn : n < 10
    · have hd : Nat.toDigits 10 n = [n.digitChar] := Nat.toDigits_of_lt_base hn
      refine ⟨n.digitChar, [], hd, isDigit_of_mem_toDigits (n := n) _ (by simp [hd]), ?_⟩
      interval_cases n <;> decide
    · obtain ⟨c, text, hd, hc, h0⟩ := ih (n / 10) (by omega)
      refine ⟨c, text ++ [(n % 10).digitChar], ?_, hc, fun h => absurd (h0 h) (by omega)⟩
      rw [Nat.toDigits_of_base_le (by decide) (by omega), hd, List.cons_append]

/-- A number of 64 bits is in range. -/
theorem filter_toInt (i : Int64) :
    ((some i.toInt).filter fun v => Int64.minValue.toInt ≤ v ∧ v ≤ Int64.maxValue.toInt).map
      Int64.ofInt = some i := by
  have hmin : Int64.minValue.toInt ≤ i.toInt := Int64.le_iff_toInt_le.1 (Int64.minValue_le i)
  have hmax : i.toInt ≤ Int64.maxValue.toInt := Int64.le_iff_toInt_le.1 (Int64.le_maxValue i)
  rw [Option.filter_some_pos (by simpa only [decide_eq_true_eq] using ⟨hmin, hmax⟩)]
  simp

/-- A signed number of 64 bits is read back from its digits. -/
theorem int64?_toDigits (i : Int64) :
    int64? (if i.toInt < 0 then '-' :: Nat.toDigits 10 i.toInt.natAbs
      else Nat.toDigits 10 i.toInt.natAbs) = some i := by
  have hd := digits?_toDigits i.toInt.natAbs
  split
  case isTrue h =>
    have hv : - Int.ofNat i.toInt.natAbs = i.toInt := by simp only [Int.ofNat_eq_natCast]; omega
    simp only [int64?, hd, Option.map_some, hv, filter_toInt]
  case isFalse h =>
    have hv : Int.ofNat i.toInt.natAbs = i.toInt := by simp only [Int.ofNat_eq_natCast]; omega
    obtain ⟨c, text, hc, hdigit, -⟩ := exists_toDigits_eq_cons i.toInt.natAbs
    have hminus : c ≠ '-' := by rintro rfl; simp [Char.isDigit] at hdigit
    have hplus : c ≠ '+' := by rintro rfl; simp [Char.isDigit] at hdigit
    rw [hc] at hd ⊢
    simp only [int64?]
    split
    case h_1 heq => exact absurd (List.cons.inj heq).1 hminus
    case h_2 heq => exact absurd (List.cons.inj heq).1 hplus
    case h_3 => simp only [hd, Option.map_some, hv, filter_toInt]

end Provisioner.Text
