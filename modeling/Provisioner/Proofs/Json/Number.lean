import Mathlib.Data.List.TakeWhile
import Provisioner.Json.Magnitude
import Provisioner.Proofs.Text.Digits

/-!
# Whole numbers in JSON

How a whole number is written, and that it is read back: as a whole number of 64 bits, and without
being taken for one too large.
-/

namespace Provisioner.Json

namespace Number

theorem isDigit_of_mem_toDigits {n : Nat} : ∀ c ∈ Nat.toDigits 10 n, isDigit c = true :=
  fun _ h => Text.isDigit_of_mem_toDigits _ h

variable (value : Int)

theorem unsigned_ofInt : (ofInt value).unsigned = Nat.toDigits 10 value.natAbs := by
  obtain ⟨c, text, hd, hc, -⟩ := Text.exists_toDigits_eq_cons value.natAbs
  have hminus : c ≠ '-' := by rintro rfl; simp [Char.isDigit] at hc
  by_cases h : value < 0
  · simp [unsigned, ofInt, h]
  · simp [unsigned, ofInt, h, hd, hminus]

theorem units_ofInt : (ofInt value).units = Nat.toDigits 10 value.natAbs := by
  rw [units, unsigned_ofInt, List.takeWhile_eq_self_iff]
  exact isDigit_of_mem_toDigits

theorem behindUnits_ofInt : (ofInt value).behindUnits = [] := by
  rw [behindUnits, unsigned_ofInt, List.dropWhile_eq_nil_iff]
  exact isDigit_of_mem_toDigits

theorem places_ofInt : (ofInt value).places = [] := by rw [places, behindUnits_ofInt]

theorem exponentChars_ofInt : (ofInt value).exponentChars = [] := by
  rw [exponentChars, behindUnits_ofInt]; rfl

theorem chars_ofInt_ne : (ofInt value).chars ≠ ['-', '0'] := by
  obtain ⟨c, text, hd, hc, h0⟩ := Text.exists_toDigits_eq_cons value.natAbs
  simp only [ofInt, hd]
  split
  case isTrue h =>
    rintro heq
    have : value.natAbs = 0 := h0 (by simp_all)
    omega
  case isFalse h =>
    rintro heq
    simp_all [Char.isDigit]

/-- A number of 64 bits is read back. -/
@[simp] theorem toInt64?_ofInt (i : Int64) : (ofInt i.toInt).toInt64? = some i := by
  have hw : (ofInt i.toInt).isWhole = true := by rw [isWhole, behindUnits_ofInt]; rfl
  rw [toInt64?, if_pos (by simpa [hw] using chars_ofInt_ne i.toInt)]
  exact Text.int64?_toDigits i

end Number

namespace Magnitude

theorem le_ofDigitChars (digits : List Char) (value : Nat) :
    value ≤ Nat.ofDigitChars 10 digits value := by
  induction digits generalizing value with
  | nil => exact Nat.le_refl value
  | cons c digits ih =>
    have := ih (10 * value + (c.toNat - '0'.toNat))
    simp only [Nat.ofDigitChars_eq_foldl, List.foldl_cons] at this ⊢
    omega

/-- Digits that all fit are all read. -/
theorem absorb_eq {digits : List Char} {value : Nat}
    (h : Nat.ofDigitChars 10 digits value < UInt64.size) (count : Nat) :
    absorb value count digits = (Nat.ofDigitChars 10 digits value, count + digits.length) := by
  induction digits generalizing value count with
  | nil => rfl
  | cons c digits ih =>
    have hc : Nat.ofDigitChars 10 (c :: digits) value =
        Nat.ofDigitChars 10 digits (value * 10 + Number.digit c) := by
      simp only [Nat.ofDigitChars_eq_foldl, List.foldl_cons, Number.digit, Nat.mul_comm]
    rw [hc] at h ⊢
    have hfit := Nat.lt_of_le_of_lt (le_ofDigitChars digits (value * 10 + Number.digit c)) h
    rw [absorb, if_pos hfit, ih h, List.length_cons, Nat.add_assoc, Nat.add_comm 1]

/-- A whole number of at most 64 bits is read exactly. -/
theorem ofNumber_ofInt {value : Int} (h : value.natAbs < UInt64.size) :
    ofNumber (.ofInt value) = ⟨value.natAbs, 0⟩ := by
  have hv : Nat.ofDigitChars 10 (Nat.toDigits 10 value.natAbs) 0 = value.natAbs :=
    Nat.ofDigitChars_toDigits (by decide) (by decide)
  have ha : absorb 0 0 (Nat.toDigits 10 value.natAbs) = _ := absorb_eq (by rwa [hv]) 0
  simp [ofNumber, Number.units_ofInt, Number.places_ofInt, Number.exponentChars_ofInt, ha, hv,
    absorb, writtenExponent, exponentDigits]

theorem round53_le {n : Nat} (h : n ≠ 0) : round53 n ≤ 2 * n := by
  have hunit : Nat.pow 2 (n.log2 + 1 - 53) ≤ n :=
    Nat.le_trans (Nat.pow_le_pow_right (by decide) (by omega)) (Nat.log2_self_le h)
  have hkept := Nat.div_mul_le_self n (Nat.pow 2 (n.log2 + 1 - 53))
  simp only [round53]
  split
  · rw [Nat.add_mul]; omega
  · omega

theorem exceedsDouble_ofNat (significand exponent : Nat) (h : significand ≠ 0) :
    exceedsDouble ⟨significand, .ofNat exponent⟩ =
      (decide (greatestExponent < exponent) ||
        decide (doubleBound ≤ round53 significand * round53 (Nat.pow 10 exponent))) := by
  cases significand with
  | zero => exact absurd rfl h
  | succ n => rfl

/-- A whole number of at most 64 bits fits a float. -/
theorem exceedsDouble_whole {n : Nat} (h : n < UInt64.size) :
    exceedsDouble ⟨n, .ofNat 0⟩ = false := by
  by_cases hn : n = 0
  · subst hn; rfl
  · have hle := round53_le hn
    have hbound : 2 * UInt64.size < doubleBound := by decide +kernel
    have hone : round53 (Nat.pow 10 0) = 1 := by decide +kernel
    rw [exceedsDouble_ofNat n 0 hn, hone, Nat.mul_one,
      decide_eq_false (Nat.not_lt.2 (Nat.zero_le _)), Bool.false_or, decide_eq_false]
    exact Nat.not_le.2 (Nat.lt_of_le_of_lt hle (Nat.lt_trans (by omega) hbound))

end Magnitude

theorem Number.exceedsDouble_ofInt {value : Int} (h : value.natAbs < UInt64.size) :
    (ofInt value).exceedsDouble = false := by
  rw [Number.exceedsDouble, Magnitude.ofNumber_ofInt h]
  exact Magnitude.exceedsDouble_whole h

end Provisioner.Json
