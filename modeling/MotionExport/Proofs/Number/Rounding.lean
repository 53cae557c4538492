import MotionExport.Number.Decimal
import MotionExport.Proofs.Number.Digits

/-! # Rounding

The magnitude nearest to a fraction depends on the value of the fraction alone, and a magnitude is
nearest to itself. So decimals of one value are rounded to one magnitude, however they are written.
-/

namespace MotionExport

theorem roundHalfEven_mul {num den t : Nat} (ht : 0 < t) :
    roundHalfEven (num * t) (den * t) = roundHalfEven num den := by
  have hlt : 2 * (num % den * t) < den * t ↔ 2 * (num % den) < den := by
    rw [← Nat.mul_assoc]
    exact Nat.mul_lt_mul_right ht
  have heq : 2 * (num % den * t) = den * t ↔ 2 * (num % den) = den := by
    rw [← Nat.mul_assoc]
    exact Nat.mul_left_inj (Nat.ne_of_gt ht)
  simp only [roundHalfEven, Nat.mul_div_mul_right _ _ ht, Nat.mul_mod_mul_right, hlt, heq]

theorem roundHalfEven_of_dvd {n den : Nat} (hden : 0 < den) : roundHalfEven (n * den) den = n := by
  simp [roundHalfEven, Nat.mul_div_cancel _ hden, hden]

namespace Magnitude

theorem nearest_mul {num den t : Nat} (ht : 0 < t) :
    nearest (num * t) (den * t) = nearest num den := by
  have hscaled : num * t * Nat.pow 2 1074 = num * Nat.pow 2 1074 * t := Nat.mul_right_comm ..
  have hden (e : Nat) : den * t * Nat.pow 2 e = den * Nat.pow 2 e * t := Nat.mul_right_comm ..
  simp only [nearest, hscaled, hden, Nat.mul_div_mul_right _ _ ht, roundHalfEven_mul ht]

/-- The significand of a magnitude has its first bit 52 places above the last one. -/
theorem log2_scaled (m : Magnitude) : Nat.log2 m.scaled - 52 = m.exponent := by
  obtain ⟨hlt, -, hnormal⟩ := m.canonical
  simp only [Nat.pow_eq] at hlt hnormal
  rw [scaled, Nat.pow_eq]
  by_cases hzero : m.significand = 0
  · rcases hnormal with h | h
    · rw [h, hzero, Nat.zero_mul, Nat.log2_zero]
    · omega
  · have hne : m.significand * 2 ^ m.exponent ≠ 0 :=
      Nat.mul_ne_zero hzero (Nat.pow_pos (by decide)).ne'
    rcases hnormal with h | h
    · rw [h, Nat.pow_zero, Nat.mul_one]
      have := (Nat.log2_lt hzero).mpr hlt
      omega
    · have hlog : Nat.log2 (m.significand * 2 ^ m.exponent) = 52 + m.exponent := by
        rw [Nat.log2_eq_iff hne, Nat.pow_add, show 52 + m.exponent + 1 = 53 + m.exponent by omega,
          Nat.pow_add]
        exact ⟨Nat.mul_le_mul_right _ h, Nat.mul_lt_mul_of_pos_right hlt (Nat.pow_pos (by decide))⟩
      omega

theorem nearest_eq_self {num den : Nat} {m : Magnitude} (hden : 0 < den)
    (h : num * Nat.pow 2 1074 = m.scaled * den) : nearest num den = some m := by
  have hfloor : num * Nat.pow 2 1074 / den = m.scaled := by
    rw [h, Nat.mul_div_cancel _ hden]
  have hround : roundHalfEven (num * Nat.pow 2 1074) (den * Nat.pow 2 m.exponent) =
      m.significand := by
    have hpos : 0 < den * Nat.pow 2 m.exponent := Nat.mul_pos hden (Nat.pow_pos (by decide))
    have hfactor : m.scaled * den = m.significand * (den * Nat.pow 2 m.exponent) := by
      rw [scaled, Nat.mul_assoc, Nat.mul_comm (Nat.pow 2 _) den]
    rw [h, hfactor, roundHalfEven_of_dvd hpos]
  simp only [nearest, hfloor, log2_scaled, hround, m.canonical, and_self, dif_pos]

end Magnitude

namespace Decimal

/-- The nearest magnitude, however many places the number has. -/
def rounded (d : Decimal) : Option Magnitude :=
  Magnitude.nearest (d.coefficient * 10 ^ d.exponent.toNat) (10 ^ (-d.exponent).toNat)

theorem magnitude_eq (d : Decimal) : d.magnitude =
    if d.coefficient = 0 then some .zero
    else if (numeral d.coefficient).length + d.exponent > overflowPower then none
    else if (numeral d.coefficient).length + d.exponent < underflowPower then some .zero
    else d.rounded := by
  obtain ⟨c, e⟩ := d
  cases e with
  | ofNat e => simp [magnitude, rounded, Nat.pow_eq]
  | negSucc e => simp [magnitude, rounded, Nat.pow_eq, Int.neg_negSucc]

theorem magnitude_eq_rounded {d : Decimal} (hne : d.coefficient ≠ 0)
    (hmost : (numeral d.coefficient).length + d.exponent ≤ overflowPower)
    (hleast : underflowPower ≤ (numeral d.coefficient).length + d.exponent) :
    d.magnitude = d.rounded := by
  rw [magnitude_eq, if_neg hne, if_neg (Int.not_lt.mpr hmost), if_neg (Int.not_lt.mpr hleast)]

theorem rounded_neg (c k : Nat) :
    (Decimal.mk c (-(k : Int))).rounded = Magnitude.nearest c (10 ^ k) := by
  simp [rounded]

theorem rounded_mul_ten_pow (c k : Nat) (e : Int) :
    (Decimal.mk (c * 10 ^ k) e).rounded = (Decimal.mk c (e + k)).rounded := by
  -- The fraction on the left has a power of ten more above and below the line.
  let t := (-e).toNat - (-(e + k)).toNat
  have hnum : c * 10 ^ k * 10 ^ e.toNat = c * 10 ^ (e + k).toNat * 10 ^ t := by
    rw [Nat.mul_assoc, Nat.mul_assoc, ← Nat.pow_add, ← Nat.pow_add]
    congr 2
    omega
  have hden : 10 ^ (-e).toNat = 10 ^ (-(e + k)).toNat * 10 ^ t := by
    rw [← Nat.pow_add]
    congr 1
    omega
  rw [rounded, rounded, hnum, hden, Magnitude.nearest_mul (Nat.pow_pos (by decide))]

/-- A power of ten may stand in the coefficient or in the exponent. -/
theorem magnitude_mul_ten_pow (c k : Nat) (e : Int) :
    (Decimal.mk (c * 10 ^ k) e).magnitude = (Decimal.mk c (e + k)).magnitude := by
  rw [magnitude_eq, magnitude_eq, rounded_mul_ten_pow]
  rcases Nat.eq_zero_or_pos c with rfl | hc
  · rw [Nat.zero_mul, if_pos rfl, if_pos rfl]
  · have hne : c * 10 ^ k ≠ 0 := Nat.mul_ne_zero hc.ne' (Nat.pow_pos (by decide)).ne'
    have hplaces : ((numeral (c * 10 ^ k)).length : Int) + e =
        (numeral c).length + (e + k) := by
      rw [length_numeral_mul_ten_pow hc]
      omega
    simp only [hplaces, hne, hc.ne', if_false]

theorem magnitude_stripZeros (d : Decimal) : d.stripZeros.magnitude = d.magnitude := by
  let digits := numeral d.coefficient
  let zeros := digits.reverse.takeWhile (· = '0')
  let kept := digits.reverse.dropWhile (· = '0')
  have hsplit : zeros ++ kept = digits.reverse := List.takeWhile_append_dropWhile
  have hzeros : zeros = List.replicate zeros.length '0' := by
    refine List.eq_replicate_iff.mpr ⟨rfl, fun c hc => ?_⟩
    simpa using List.all_eq_true.mp List.all_takeWhile c hc
  have hvalue : d.coefficient = digitsValue kept.reverse * 10 ^ zeros.length := by
    rw [← digitsValue_append_zeros, ← List.reverse_replicate, ← hzeros, ← List.reverse_append,
      hsplit, List.reverse_reverse, digitsValue_numeral]
  have hlength : digits.length - kept.length = zeros.length := by
    rw [← List.length_reverse, ← hsplit, List.length_append, Nat.add_sub_cancel]
  have hstrip : d.stripZeros = ⟨digitsValue kept.reverse, d.exponent + zeros.length⟩ := by
    rw [← hlength]
    rfl
  rw [hstrip, ← magnitude_mul_ten_pow, ← hvalue]

end Decimal

end MotionExport
