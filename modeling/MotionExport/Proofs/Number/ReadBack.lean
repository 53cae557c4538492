import MotionExport.Number.Style
import MotionExport.Proofs.Number.Rounding

/-! # Reading numbers back

A number that has been written as text is read back as the same number, in every style that writes
what is not finite as a word. The shortest decimal of a magnitude rounds to it, and the layout of
the digits keeps the value of the decimal.
-/

namespace MotionExport

namespace Magnitude

variable {tie : Tie} {m : Magnitude} {k : Int} {d : Decimal}

theorem magnitude_of_readsBack (h : m.readsBack d = true) : d.magnitude = some m := by
  simpa [readsBack] using h

theorem magnitude_neighbour (h : m.neighbour? tie k = some d) : d.magnitude = some m := by
  have hboth : m.readsBack ⟨m.floorAt k, k⟩ = true ∧ m.readsBack ⟨m.floorAt k + 1, k⟩ = true →
      d = ⟨m.floorAt k, k⟩ ∨ d = ⟨m.floorAt k + 1, k⟩ := by
    rintro ⟨hlower, hupper⟩
    simp only [neighbour?, hlower, hupper] at h
    split at h
    · cases h; exact .inl rfl
    · cases h; exact .inr rfl
    · cases tie with
      | up => cases h; exact .inr rfl
      | even =>
        cases h
        split
        · exact .inl rfl
        · exact .inr rfl
  cases hlower : m.readsBack ⟨m.floorAt k, k⟩ <;> cases hupper : m.readsBack ⟨m.floorAt k + 1, k⟩
  · simp [neighbour?, hlower, hupper] at h
  · simp only [neighbour?, hlower, hupper] at h
    cases h
    exact magnitude_of_readsBack hupper
  · simp only [neighbour?, hlower, hupper] at h
    cases h
    exact magnitude_of_readsBack hlower
  · rcases hboth ⟨hlower, hupper⟩ with rfl | rfl
    · exact magnitude_of_readsBack hlower
    · exact magnitude_of_readsBack hupper

theorem eq_zero_of_scaled (h : m.scaled = 0) : m = zero := by
  obtain ⟨s, e, hc⟩ := m
  have hs : s = 0 := by
    rcases Nat.mul_eq_zero.mp h with h | h
    · exact h
    · exact absurd h (Nat.pow_pos (by decide)).ne'
  obtain ⟨-, -, he | he⟩ := hc
  · subst hs he
    rfl
  · subst hs
    exact absurd he (by decide)

theorem magnitude_exact (m : Magnitude) : m.exact.magnitude = some m := by
  -- The number of places stays a variable, so that nothing computes its powers.
  obtain ⟨k, hk⟩ : ∃ k : Nat, 1074 = k := ⟨_, rfl⟩
  have hexact : m.exact = ⟨m.scaled * 5 ^ k, -(k : Int)⟩ := by
    have hexponent : (-1074 : Int) = -(k : Int) := by omega
    rw [exact, hk, hexponent, Nat.pow_eq]
  rw [hexact]
  by_cases hzero : m.scaled = 0
  · rw [Decimal.magnitude_eq, if_pos (Nat.mul_eq_zero.mpr (.inl hzero)), eq_zero_of_scaled hzero]
  obtain ⟨hs, he, -⟩ := m.canonical
  have hbound (e : Nat) (h : m.exponent ≤ e) : m.scaled < 2 ^ (53 + e) := by
    calc m.scaled < 2 ^ 53 * 2 ^ m.exponent :=
          Nat.mul_lt_mul_of_pos_right hs (Nat.pow_pos (by decide))
      _ = 2 ^ (53 + m.exponent) := (Nat.pow_add ..).symm
      _ ≤ 2 ^ (53 + e) := Nat.pow_le_pow_right (by decide) (Nat.add_le_add_left h 53)
  have hmost : (numeral (m.scaled * 5 ^ k)).length ≤ 1384 := by
    rw [length_numeral_le_iff (by decide)]
    calc m.scaled * 5 ^ k < 2 ^ (53 + 2045) * 5 ^ k :=
          Nat.mul_lt_mul_of_pos_right (hbound 2045 he) (Nat.pow_pos (by decide))
      _ ≤ 10 ^ 1384 := by subst hk; decide +kernel
  have hleast : ¬ (numeral (m.scaled * 5 ^ k)).length ≤ 743 := by
    rw [length_numeral_le_iff (by decide), Nat.not_lt]
    calc 10 ^ 743 ≤ 5 ^ k := by subst hk; decide +kernel
      _ ≤ m.scaled * 5 ^ k := Nat.le_mul_of_pos_left _ (Nat.pos_of_ne_zero hzero)
  rw [Decimal.magnitude_eq_rounded, Decimal.rounded_neg]
  · refine nearest_eq_self (Nat.pow_pos (by decide)) ?_
    rw [hk, Nat.mul_assoc, Nat.pow_eq, ← Nat.mul_pow]
  · exact Nat.mul_ne_zero hzero (Nat.pow_pos (by decide)).ne'
  · simp only [Decimal.overflowPower]
    omega
  · simp only [Decimal.underflowPower]
    omega

/-- The shortest decimal of a magnitude rounds to it. -/
theorem magnitude_shortest (tie : Tie) (m : Magnitude) :
    (m.shortest tie).magnitude = some m := by
  rw [shortest, Decimal.magnitude_stripZeros]
  cases hfound : (List.range 17).findSome? fun n => m.neighbour? tie (m.places - (n + 1 : Nat)) with
  | none => exact magnitude_exact m
  | some d =>
    obtain ⟨n, -, h⟩ := List.exists_of_findSome?_eq_some hfound
    exact magnitude_neighbour h

end Magnitude

section Digits

variable {s t whole point fraction ending digits : Text}

theorem span_digits (hs : ∀ c ∈ s, c.isDigit = true) (ht : ∀ c ∈ t.head?, c.isDigit = false) :
    (s ++ t).takeWhile Char.isDigit = s ∧ (s ++ t).dropWhile Char.isDigit = t := by
  obtain ⟨htake, hdrop⟩ := digits_append ht s
  rw [htake, hdrop, List.takeWhile_eq_self_iff.mpr hs, List.dropWhile_eq_nil_iff.mpr hs]
  exact ⟨rfl, rfl⟩

theorem natural?_numeral (n : Nat) : natural? (numeral n) = some n := by
  rw [natural?, if_pos, digitsValue_numeral]
  exact ⟨numeral_ne_nil n, List.all_eq_true.mpr fun c hc => isDigit_of_mem_numeral hc⟩

theorem exists_numeral_eq_cons (n : Nat) : ∃ c t, numeral n = c :: t ∧ c.isDigit = true := by
  obtain ⟨c, t, h⟩ := List.exists_cons_of_ne_nil (numeral_ne_nil n)
  exact ⟨c, t, h, isDigit_of_mem_numeral (h ▸ List.mem_cons_self)⟩

namespace Decimal

inductive IsExponent : Text → Int → Prop where

  | unsigned (n : Nat) : IsExponent (numeral n) n

  | plus (n : Nat) : IsExponent ('+' :: numeral n) n

  | minus (n : Nat) : IsExponent ('-' :: numeral n) (-n)

theorem exponentPart?_of_isExponent {power : Int} (h : IsExponent t power) :
    exponentPart? t = some power := by
  cases h with
  | unsigned n =>
    obtain ⟨c, t, h, hc⟩ := exists_numeral_eq_cons n
    rw [exponentPart?, natural?_numeral]
    · rfl
    · rintro t' ht
      cases h.symm.trans ht
      exact absurd hc (by decide)
    · rintro t' ht
      cases h.symm.trans ht
      exact absurd hc (by decide)
  | plus n => simp [exponentPart?, natural?_numeral]
  | minus n => simp [exponentPart?, natural?_numeral]

def endingPower? : Text → Option Int
  | [] => some 0
  | c :: t => if c = 'e' ∨ c = 'E' then exponentPart? t else none

/-- Digits with a point or without one, and an exponent or none. -/
structure IsLayout (whole fraction : Text) (power : Int) (t : Text) : Prop where
  isDigit_whole : ∀ c ∈ whole, c.isDigit = true
  isDigit_fraction : ∀ c ∈ fraction, c.isDigit = true
  ne_nil : whole ≠ []
  eq_parts : ∃ point ending, t = whole ++ (point ++ ending) ∧
    (point = '.' :: fraction ∨ point = [] ∧ fraction = []) ∧
    (ending = [] ∧ power = 0 ∨ ∃ e, ending = 'e' :: e ∧ IsExponent e power)

theorem parse?_of_isLayout {power : Int} (h : IsLayout whole fraction power t) :
    parse? t = some ⟨digitsValue (whole ++ fraction), power - fraction.length⟩ := by
  obtain ⟨hwhole, hfraction, hne, point, ending, rfl, hpoint, hending⟩ := h
  have hne : whole ++ fraction ≠ [] := List.append_ne_nil_of_left_ne_nil hne _
  obtain ⟨hmark, hpower⟩ : (∀ c, ending.head? = some c → c = 'e') ∧
      endingPower? ending = some power := by
    rcases hending with ⟨rfl, rfl⟩ | ⟨e, rfl, he⟩
    · exact ⟨by simp, rfl⟩
    · exact ⟨by simp, by simp [endingPower?, exponentPart?_of_isExponent he]⟩
  suffices hparse : parse? (whole ++ (point ++ ending)) =
      (endingPower? ending).map fun power =>
        ⟨digitsValue (whole ++ fraction), power - fraction.length⟩ by
    rw [hparse, hpower, Option.map_some]
  have hnot : ∀ c, ending.head? = some c → c.isDigit = false := by
    intro c hc
    rw [hmark c hc]
    decide
  rcases hpoint with rfl | ⟨rfl, rfl⟩
  · have hrest := span_digits (s := whole) (t := '.' :: fraction ++ ending) hwhole (by simp)
    have hlast := span_digits hfraction hnot
    rw [List.cons_append] at hrest
    simp only [parse?, List.cons_append, hrest, hlast, hne, if_false]
    rfl
  · have hrest := span_digits hwhole hnot
    rw [List.append_nil] at hne
    simp only [parse?, List.nil_append, hrest]
    split
    · rename_i _ _ rest
      exact absurd (hmark '.' rfl) (by decide)
    · simp only [List.append_nil, hne, if_false]
      rfl

end Decimal

namespace NumberStyle

open Decimal

variable {power : Int}

def exponentText (s : NumberStyle) : Int → Text
  | .ofNat n => (if s.plusInExponent then ['+'] else []) ++ numeral n
  | .negSucc n => '-' :: numeral (n + 1)

theorem isExponent_exponentText (s : NumberStyle) (power : Int) :
    IsExponent (s.exponentText power) power := by
  cases power with
  | ofNat n =>
    rw [exponentText]
    split
    · exact .plus n
    · exact .unsigned n
  | negSucc n => exact .minus (n + 1)

theorem isLayout_scientific (s : NumberStyle) (hdigits : ∀ c ∈ digits, c.isDigit = true)
    (hne : digits ≠ []) (power : Int) :
    IsLayout (digits.take 1) (digits.drop 1) power (s.scientific digits power) := by
  have hexponent := s.isExponent_exponentText power
  refine ⟨fun c hc => hdigits c (List.mem_of_mem_take hc),
    fun c hc => hdigits c (List.mem_of_mem_drop hc), by simpa using hne, ?_⟩
  match digits, hne with
  | [d], _ =>
    exact ⟨[], 'e' :: s.exponentText power, by cases power <;> rfl, .inr ⟨rfl, rfl⟩,
      .inr ⟨_, rfl, hexponent⟩⟩
  | d :: c :: rest, _ =>
    exact ⟨'.' :: c :: rest, 'e' :: s.exponentText power, by cases power <;> rfl, .inl rfl,
      .inr ⟨_, rfl, hexponent⟩⟩

theorem isLayout_point {fraction : Text} (hwhole : ∀ c ∈ whole, c.isDigit = true)
    (hfraction : ∀ c ∈ fraction, c.isDigit = true) (hne : whole ≠ []) :
    IsLayout whole fraction 0 (whole ++ '.' :: fraction) :=
  ⟨hwhole, hfraction, hne, '.' :: fraction, [], by rw [List.append_nil], .inl rfl,
    .inl ⟨rfl, rfl⟩⟩

theorem isDigit_zeros (n : Nat) : ∀ c ∈ List.replicate n '0', c.isDigit = true := by
  intro c hc
  rw [List.eq_of_mem_replicate hc]
  decide

theorem positional_succ (digits : Text) (p : Nat) : positional digits (.ofNat (p + 1)) =
    if digits.length ≤ p + 1 then
      digits ++ List.replicate (p + 1 - digits.length) '0' ++ ".0".toList
    else digits.take (p + 1) ++ ['.'] ++ digits.drop (p + 1) := rfl

theorem exists_isLayout_positional (hdigits : ∀ c ∈ digits, c.isDigit = true) (hne : digits ≠ [])
    (places : Int) :
    ∃ whole fraction, IsLayout whole fraction 0 (positional digits places) ∧
      (Decimal.mk (digitsValue (whole ++ fraction)) (0 - fraction.length)).magnitude =
        (Decimal.mk (digitsValue digits) (places - digits.length)).magnitude := by
  have hzero : ∀ c ∈ ['0'], c.isDigit = true := isDigit_zeros 1
  match places with
  | .negSucc n =>
    have hfraction : ∀ c ∈ List.replicate (n + 1) '0' ++ digits, c.isDigit = true :=
      List.forall_mem_append.mpr ⟨isDigit_zeros _, hdigits⟩
    refine ⟨['0'], List.replicate (n + 1) '0' ++ digits,
      isLayout_point hzero hfraction (List.cons_ne_nil _ _), ?_⟩
    have hvalue : digitsValue (['0'] ++ (List.replicate (n + 1) '0' ++ digits)) =
        digitsValue digits :=
      (digitsValue_zeros_append _ 1).trans (digitsValue_zeros_append _ _)
    rw [hvalue, List.length_append, List.length_replicate]
    congr 2
    omega
  | .ofNat 0 =>
    refine ⟨['0'], digits, isLayout_point hzero hdigits (List.cons_ne_nil _ _), ?_⟩
    rw [show digitsValue (['0'] ++ digits) = digitsValue digits from digitsValue_zeros_append _ 1]
    rfl
  | .ofNat (p + 1) =>
    by_cases hp : digits.length ≤ p + 1
    · have hwhole : ∀ c ∈ digits ++ List.replicate (p + 1 - digits.length) '0', c.isDigit = true :=
        List.forall_mem_append.mpr ⟨hdigits, isDigit_zeros _⟩
      have hlayout := isLayout_point hwhole hzero (List.append_ne_nil_of_left_ne_nil hne _)
      refine ⟨_, ['0'], by rw [positional_succ, if_pos hp]; exact hlayout, ?_⟩
      have hvalue : digitsValue (digits ++ List.replicate (p + 1 - digits.length) '0' ++ ['0']) =
          digitsValue digits * 10 ^ (p + 1 - digits.length + 1) := by
        rw [List.append_assoc, ← digitsValue_append_zeros, List.replicate_succ']
      rw [hvalue, magnitude_mul_ten_pow]
      congr 2
      simp only [List.length_singleton, Int.ofNat_eq_natCast]
      omega
    · refine ⟨digits.take (p + 1), digits.drop (p + 1), ?_, ?_⟩
      · rw [positional_succ, if_neg hp, List.append_assoc]
        refine isLayout_point (fun c hc => hdigits c (List.mem_of_mem_take hc))
          (fun c hc => hdigits c (List.mem_of_mem_drop hc)) ?_
        simpa using hne
      · rw [List.take_append_drop, List.length_drop]
        congr 2
        simp only [Int.ofNat_eq_natCast]
        omega

/-- A written magnitude is a decimal that rounds to it. -/
theorem exists_isLayout_writeMagnitude (s : NumberStyle) (m : Magnitude) :
    ∃ whole fraction power, IsLayout whole fraction power (s.writeMagnitude m) ∧
      (Decimal.mk (digitsValue (whole ++ fraction)) (power - fraction.length)).magnitude =
        some m := by
  rw [writeMagnitude]
  split
  · rename_i hzero
    subst hzero
    exact ⟨['0'], ['0'], 0, isLayout_point (isDigit_zeros 1) (isDigit_zeros 1) (by decide),
      by decide⟩
  · let d := m.shortest s.tie
    have hd : d.magnitude = some m := m.magnitude_shortest s.tie
    have hdigits : ∀ c ∈ numeral d.coefficient, c.isDigit = true := fun _ => isDigit_of_mem_numeral
    have hne := numeral_ne_nil d.coefficient
    dsimp only
    split
    · obtain ⟨whole, fraction, hlayout, hmagnitude⟩ := exists_isLayout_positional hdigits hne
        ((numeral d.coefficient).length + d.exponent)
      have hexponent : ((numeral d.coefficient).length : Int) + d.exponent -
          (numeral d.coefficient).length = d.exponent := by omega
      rw [digitsValue_numeral, hexponent] at hmagnitude
      exact ⟨whole, fraction, 0, hlayout, hmagnitude.trans hd⟩
    · refine ⟨_, _, _, s.isLayout_scientific hdigits hne
        ((numeral d.coefficient).length + d.exponent - 1), ?_⟩
      have hlength : 0 < (numeral d.coefficient).length := List.length_pos_iff.mpr hne
      have hexponent : ((numeral d.coefficient).length : Int) + d.exponent - 1 -
          ((numeral d.coefficient).length - 1 : Nat) = d.exponent := by omega
      rw [List.take_append_drop, digitsValue_numeral, List.length_drop, hexponent]
      exact hd

end NumberStyle

theorem Decimal.IsLayout.mem {power : Int} {c : Char} (h : IsLayout whole fraction power t)
    (hc : c ∈ t) : c.isDigit = true ∨ c ∈ ['.', 'e', '+', '-'] := by
  obtain ⟨hwhole, hfraction, -, point, ending, rfl, hpoint, hending⟩ := h
  have hexponent {e : Text} (he : IsExponent e power) (hmem : c ∈ e) :
      c.isDigit = true ∨ c ∈ ['.', 'e', '+', '-'] := by
    cases he with
    | unsigned n => exact .inl (isDigit_of_mem_numeral hmem)
    | plus n =>
      rcases List.mem_cons.mp hmem with rfl | hmem
      · simp
      · exact .inl (isDigit_of_mem_numeral hmem)
    | minus n =>
      rcases List.mem_cons.mp hmem with rfl | hmem
      · simp
      · exact .inl (isDigit_of_mem_numeral hmem)
  simp only [List.mem_append] at hc
  rcases hc with hc | hc | hc
  · exact .inl (hwhole c hc)
  · rcases hpoint with rfl | ⟨rfl, -⟩
    · rcases List.mem_cons.mp hc with rfl | hc
      · simp
      · exact .inl (hfraction c hc)
    · cases hc
  · rcases hending with ⟨rfl, -⟩ | ⟨e, rfl, he⟩
    · cases hc
    · rcases List.mem_cons.mp hc with rfl | hc
      · simp
      · exact hexponent he hc

theorem Decimal.IsLayout.exists_cons {power : Int} (h : IsLayout whole fraction power t) :
    ∃ c rest, t = c :: rest ∧ c.isDigit = true := by
  obtain ⟨hwhole, -, hne, point, ending, rfl, -⟩ := h
  obtain ⟨c, rest, rfl⟩ := List.exists_cons_of_ne_nil hne
  exact ⟨c, rest ++ (point ++ ending), rfl, hwhole c List.mem_cons_self⟩

end Digits

namespace Binary64

open NumberStyle

theorem parseUnsigned?_writeMagnitude (s : NumberStyle) (negative : Bool) (m : Magnitude) :
    parseUnsigned? negative (s.writeMagnitude m) = some (finite negative m) := by
  obtain ⟨whole, fraction, power, hlayout, hmagnitude⟩ := s.exists_isLayout_writeMagnitude m
  simp only [parseUnsigned?, Decimal.parse?_of_isLayout hlayout, hmagnitude]
  rfl

/-- Every number of a report is read back as it was. -/
theorem parse?_write_plain (x : Binary64) : parse? (plain.write x) = some x := by
  match x with
  | nan => decide
  | infinity true => decide
  | infinity false => decide
  | finite true m => exact parseUnsigned?_writeMagnitude plain true m
  | finite false m =>
    obtain ⟨_, _, _, hlayout, -⟩ := plain.exists_isLayout_writeMagnitude m
    obtain ⟨c, rest, h, hc⟩ := hlayout.exists_cons
    have hread := parseUnsigned?_writeMagnitude plain false m
    rw [write, h] at *
    rw [if_neg Bool.false_ne_true, List.nil_append, parse?]
    · exact hread
    · rintro t ⟨⟩
      exact absurd hc (by decide)
    · rintro t ⟨⟩
      exact absurd hc (by decide)

/-- A number of a report is made of digits, what marks the parts of a number, and the letters of the
words for what is not finite. -/
theorem mem_write_plain {x : Binary64} {c : Char} (h : c ∈ plain.write x) :
    c.isDigit = true ∨ c ∈ ".e+-NaNinf".toList := by
  match x with
  | nan => exact .inr (List.mem_append_right ".e+-".toList (List.mem_append_left "inf".toList h))
  | infinity true =>
    rcases List.mem_cons.mp h with rfl | h
    · decide
    · exact .inr (List.mem_append_right ".e+-NaN".toList h)
  | infinity false => exact .inr (List.mem_append_right ".e+-NaN".toList h)
  | finite negative m =>
    obtain ⟨_, _, _, hlayout, -⟩ := plain.exists_isLayout_writeMagnitude m
    rcases List.mem_append.mp h with h | h
    · cases negative with
      | true =>
        rw [if_pos rfl, List.mem_singleton] at h
        subst h
        decide
      | false => cases h
    · rcases hlayout.mem h with h | h
      · exact .inl h
      · exact .inr (List.mem_append_left "NaNinf".toList h)

end Binary64

end MotionExport
