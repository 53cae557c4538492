import Mathlib.Algebra.Order.Ring.Nat
import Mathlib.Data.List.Basic
import Mathlib.Data.List.TakeWhile
import MotionExport.Text.Numeral

/-! # Digits

A numeral is a row of ASCII digits that stands for its number. Zeros behind it are factors of ten,
and zeros in front of it count for nothing.
-/

namespace MotionExport

variable {n k : Nat} {c : Char} {s t : Text}

/-- Where no digit follows, the digits at the start of a text stay what they are. -/
theorem digits_append (ht : ∀ c ∈ t.head?, c.isDigit = false) (s : Text) :
    (s ++ t).takeWhile Char.isDigit = s.takeWhile Char.isDigit ∧
      (s ++ t).dropWhile Char.isDigit = s.dropWhile Char.isDigit ++ t := by
  induction s with
  | nil =>
    cases t with
    | nil => exact ⟨rfl, rfl⟩
    | cons c t => simp [ht c rfl]
  | cons d s ih =>
    simp only [List.cons_append, List.takeWhile_cons, List.dropWhile_cons, ih.1, ih.2]
    split <;> simp

theorem numeral_eq_toDigits (n : Nat) : numeral n = Nat.toDigits 10 n := by
  fun_induction numeral n with
  | case1 n hn => rw [Nat.toDigits_of_lt_base hn]
  | case2 n hn ih => rw [Nat.toDigits_of_base_le (by decide) (Nat.le_of_not_lt hn), ih]

theorem digitsValue_eq_ofDigitChars (t : Text) : digitsValue t = Nat.ofDigitChars 10 t 0 := by
  rw [Nat.ofDigitChars_eq_foldl]
  rfl

@[simp] theorem digitsValue_numeral (n : Nat) : digitsValue (numeral n) = n := by
  rw [digitsValue_eq_ofDigitChars, numeral_eq_toDigits, Nat.ofDigitChars_ten_toDigits]

theorem isDigit_of_mem_numeral (h : c ∈ numeral n) : c.isDigit = true := by
  rw [numeral_eq_toDigits] at h
  exact Nat.isDigit_of_mem_toDigits (by decide) le_rfl h

theorem numeral_ne_nil (n : Nat) : numeral n ≠ [] := by
  rw [numeral_eq_toDigits]
  exact Nat.toDigits_ne_nil

theorem numeral_head?_ne_zero (hn : 0 < n) : ∀ c ∈ (numeral n).head?, c ≠ '0' := by
  induction n using numeral.induct with
  | case1 n hlt =>
    rw [numeral, if_pos hlt]
    rintro _ ⟨⟩
    rw [ne_eq, Nat.digitChar_eq_zero]
    omega
  | case2 n hge ih =>
    rw [numeral, if_neg hge, List.head?_append_of_ne_nil _ (numeral_ne_nil _)]
    exact ih (Nat.div_pos (Nat.le_of_not_lt hge) (by decide))

theorem length_numeral_le_iff (hk : 0 < k) : (numeral n).length ≤ k ↔ n < 10 ^ k := by
  rw [numeral_eq_toDigits]
  exact Nat.length_toDigits_le_iff (by decide) hk

theorem digitsValue_append (s t : Text) :
    digitsValue (s ++ t) = 10 ^ t.length * digitsValue s + digitsValue t := by
  simp only [digitsValue_eq_ofDigitChars]
  rw [Nat.ofDigitChars_append, Nat.ofDigitChars_eq_ofDigitChars_zero]

theorem digitsValue_replicate_zero (k : Nat) : digitsValue (List.replicate k '0') = 0 := by
  rw [digitsValue_eq_ofDigitChars, Nat.ofDigitChars_replicate_zero, Nat.mul_zero]

theorem digitsValue_append_zeros (t : Text) (k : Nat) :
    digitsValue (t ++ List.replicate k '0') = digitsValue t * 10 ^ k := by
  rw [digitsValue_append, digitsValue_replicate_zero, List.length_replicate, Nat.add_zero,
    Nat.mul_comm]

theorem digitsValue_zeros_append (t : Text) (k : Nat) :
    digitsValue (List.replicate k '0' ++ t) = digitsValue t := by
  rw [digitsValue_append, digitsValue_replicate_zero, Nat.mul_zero, Nat.zero_add]

theorem length_numeral_mul_ten_pow (hn : 0 < n) (k : Nat) :
    (numeral (n * 10 ^ k)).length = (numeral n).length + k := by
  induction k with
  | zero => rw [Nat.pow_zero, Nat.mul_one, Nat.add_zero]
  | succ k ih =>
    have hpos : 0 < n * 10 ^ k := Nat.mul_pos hn (Nat.pow_pos (by decide))
    have hle : 10 ≤ n * 10 ^ (k + 1) := by rw [Nat.pow_succ, ← Nat.mul_assoc]; omega
    rw [numeral, if_neg (Nat.not_lt.mpr hle), Nat.pow_succ, ← Nat.mul_assoc,
      Nat.mul_div_cancel _ (by decide), List.length_append, ih]
    rfl

end MotionExport
