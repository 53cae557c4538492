import MotionExport.Json.Number
import MotionExport.Proofs.Number.Digits

/-! # Scanning JSON numbers

A number ends where no number can go on. What has been scanned as a number is scanned as the same
number in front of anything else.
-/

namespace MotionExport

/-- The text does not go on with a character that a number might have. -/
def Text.EndsNumber (t : Text) : Prop :=
  ∀ c ∈ t.head?, c.isDigit = false ∧ c ≠ '.' ∧ c ≠ 'e' ∧ c ≠ 'E'

namespace JsonNumber

variable {t rest : Text}

theorem digits_append_of_endsNumber (ht : t.EndsNumber) (w : Text) :
    (w ++ t).takeWhile Char.isDigit = w.takeWhile Char.isDigit ∧
      (w ++ t).dropWhile Char.isDigit = w.dropWhile Char.isDigit ++ t :=
  digits_append (fun c hc => (ht c hc).1) w

theorem scanWhole_append (ht : t.EndsNumber) {w digits : Text}
    (h : scanWhole w = some (digits, rest)) : scanWhole (w ++ t) = some (digits, rest ++ t) := by
  cases w with
  | nil => contradiction
  | cons c w =>
    by_cases hc : c = '0'
    · subst hc
      cases h
      rfl
    · rw [scanWhole] at h
      · obtain ⟨htake, hdrop⟩ := digits_append_of_endsNumber ht w
        rw [List.cons_append, scanWhole, htake, hdrop]
        · split at h
          · rename_i hdigit
            cases h
            exact if_pos hdigit
          · contradiction
        · exact hc
      · exact hc

theorem scanDigits_append (ht : t.EndsNumber) {w digits : Text}
    (h : scanDigits w = some (digits, rest)) : scanDigits (w ++ t) = some (digits, rest ++ t) := by
  obtain ⟨htake, hdrop⟩ := digits_append_of_endsNumber ht w
  rw [scanDigits] at h ⊢
  rw [htake, hdrop]
  split at h
  · contradiction
  · rename_i hne
    cases h
    exact if_neg hne

theorem scanFraction_of_head? (h : ∀ c ∈ t.head?, c ≠ '.') : scanFraction t = some ([], t) := by
  rw [scanFraction]
  rintro u rfl
  exact h '.' rfl rfl

theorem scanFraction_append (ht : t.EndsNumber) {w digits : Text}
    (h : scanFraction w = some (digits, rest)) :
    scanFraction (w ++ t) = some (digits, rest ++ t) := by
  cases w with
  | nil =>
    cases h
    exact scanFraction_of_head? fun c hc => (ht c hc).2.1
  | cons c w =>
    by_cases hc : c = '.'
    · subst hc
      exact scanDigits_append ht h
    · rw [scanFraction_of_head? (by rintro _ ⟨⟩; exact hc)] at h
      cases h
      exact scanFraction_of_head? (by rintro _ ⟨⟩; exact hc)

def exponentSign : Text → Bool × Text
  | '+' :: t => (false, t)
  | '-' :: t => (true, t)
  | t => (false, t)

theorem exponentSign_append {w : Text} (hw : w ≠ []) (t : Text) :
    exponentSign (w ++ t) = ((exponentSign w).1, (exponentSign w).2 ++ t) := by
  obtain ⟨c, w, rfl⟩ := List.exists_cons_of_ne_nil hw
  by_cases hplus : c = '+'
  · subst hplus
    rfl
  · by_cases hminus : c = '-'
    · subst hminus
      rfl
    · rw [List.cons_append, exponentSign, exponentSign]
      · rfl
      all_goals grind

theorem scanExponent_cons (c : Char) (t : Text) :
    scanExponent (c :: t) =
      if c = 'e' ∨ c = 'E' then
        (scanDigits (exponentSign t).2).map fun (digits, rest) =>
          (some ((exponentSign t).1, digits), rest)
      else some (none, c :: t) := rfl

theorem scanExponent_of_head? (h : ∀ c ∈ t.head?, c ≠ 'e' ∧ c ≠ 'E') :
    scanExponent t = some (none, t) := by
  cases t with
  | nil => rfl
  | cons c t => rw [scanExponent_cons, if_neg (not_or.mpr (h c rfl))]

theorem scanExponent_append (ht : t.EndsNumber) {w : Text} {exponent : Option (Bool × Text)}
    (h : scanExponent w = some (exponent, rest)) :
    scanExponent (w ++ t) = some (exponent, rest ++ t) := by
  cases w with
  | nil =>
    cases h
    exact scanExponent_of_head? fun c hc => (ht c hc).2.2
  | cons c w =>
    by_cases hc : c = 'e' ∨ c = 'E'
    · rw [scanExponent_cons, if_pos hc, Option.map_eq_some_iff] at h
      obtain ⟨⟨digits, rest⟩, hdigits, ⟨⟩⟩ := h
      have hw : w ≠ [] := by
        rintro rfl
        contradiction
      rw [List.cons_append, scanExponent_cons, if_pos hc, exponentSign_append hw,
        scanDigits_append ht hdigits]
      rfl
    · rw [scanExponent_cons, if_neg hc] at h
      cases h
      rw [List.cons_append, scanExponent_cons, if_neg hc]

def sign : Text → Bool × Text
  | '-' :: t => (true, t)
  | t => (false, t)

theorem sign_append {w : Text} (hw : w ≠ []) (t : Text) :
    sign (w ++ t) = ((sign w).1, (sign w).2 ++ t) := by
  obtain ⟨c, w, rfl⟩ := List.exists_cons_of_ne_nil hw
  by_cases hminus : c = '-'
  · subst hminus
    rfl
  · rw [List.cons_append, sign, sign]
    · rfl
    all_goals grind

theorem scan_eq (w : Text) : scan w = (do
    let (whole, u) ← scanWhole (sign w).2
    let (fraction, v) ← scanFraction u
    let (exponent, rest) ← scanExponent v
    some (⟨(sign w).1, whole, fraction, exponent⟩, rest)) := rfl

theorem scan_eq_some_iff {w : Text} {n : JsonNumber} :
    scan w = some (n, rest) ↔ (sign w).1 = n.negative ∧ ∃ u v,
      scanWhole (sign w).2 = some (n.whole, u) ∧ scanFraction u = some (n.fraction, v) ∧
        scanExponent v = some (n.exponent, rest) := by
  obtain ⟨negative, whole, fraction, exponent⟩ := n
  simp only [scan_eq, Option.bind_eq_bind, Option.bind_eq_some_iff, Prod.exists, Option.some.injEq,
    Prod.mk.injEq, JsonNumber.mk.injEq]
  constructor
  · rintro ⟨_, u, hwhole, _, v, hfraction, _, _, hexponent, ⟨hsign, rfl, rfl, rfl⟩, rfl⟩
    exact ⟨hsign, u, v, hwhole, hfraction, hexponent⟩
  · rintro ⟨hsign, u, v, hwhole, hfraction, hexponent⟩
    exact ⟨_, u, hwhole, _, v, hfraction, _, _, hexponent, ⟨hsign, rfl, rfl, rfl⟩, rfl⟩

/-- The number at the start of a text stays what it is when the text goes on with something else. -/
theorem scan_append (ht : t.EndsNumber) {w : Text} {n : JsonNumber}
    (h : scan w = some (n, rest)) : scan (w ++ t) = some (n, rest ++ t) := by
  have hw : w ≠ [] := by
    rintro rfl
    contradiction
  obtain ⟨hsign, u, v, hwhole, hfraction, hexponent⟩ := scan_eq_some_iff.mp h
  refine scan_eq_some_iff.mpr ⟨?_, u ++ t, v ++ t, ?_, ?_, ?_⟩
  · rw [sign_append hw, hsign]
  · rw [sign_append hw]
    exact scanWhole_append ht hwhole
  · exact scanFraction_append ht hfraction
  · exact scanExponent_append ht hexponent

def startsNumber (c : Char) : Bool := c = '-' || c.isDigit

theorem exists_cons_of_scan {w : Text} {n : JsonNumber} (h : scan w = some (n, rest)) :
    ∃ c u, w = c :: u ∧ startsNumber c = true := by
  obtain ⟨-, _, _, hwhole, -⟩ := scan_eq_some_iff.mp h
  cases w with
  | nil => contradiction
  | cons c u =>
    refine ⟨c, u, rfl, ?_⟩
    by_cases hminus : c = '-'
    · subst hminus
      rfl
    · have hsign : sign (c :: u) = (false, c :: u) := by
        rw [sign]
        rintro _ ⟨⟩
        exact hminus rfl
      rw [hsign] at hwhole
      by_cases hzero : c = '0'
      · subst hzero
        rfl
      · rw [scanWhole] at hwhole
        · split at hwhole
          · rename_i hdigit
            simp [startsNumber, hdigit]
          · contradiction
        · exact hzero

theorem ne_of_startsNumber {c a : Char} (hc : startsNumber c = true) (ha : startsNumber a = false) :
    c ≠ a := by
  rintro rfl
  exact Bool.false_ne_true (ha.symm.trans hc)

theorem ofText?_eq_some_iff {w : Text} {n : JsonNumber} :
    ofText? w = some n ↔ scan w = some (n, []) := by
  rw [ofText?]
  split
  · rename_i m hscan
    rw [hscan]
    simp
  · rename_i hnone
    simp only [reduceCtorEq, false_iff]
    exact hnone n

theorem ofText?_numeral (n : Nat) : ofText? (numeral n) = some ⟨false, numeral n, [], none⟩ := by
  have hdigits : ∀ c ∈ numeral n, c.isDigit = true := fun _ => isDigit_of_mem_numeral
  obtain ⟨c, t, hcons⟩ := List.exists_cons_of_ne_nil (numeral_ne_nil n)
  have hc : c.isDigit = true := hdigits c (hcons ▸ List.mem_cons_self)
  have hsign : sign (numeral n) = (false, numeral n) := by
    rw [hcons, sign]
    rintro _ ⟨⟩
    contradiction
  refine ofText?_eq_some_iff.mpr (scan_eq_some_iff.mpr ⟨by rw [hsign], [], [], ?_, rfl, rfl⟩)
  rw [hsign]
  rcases Nat.eq_zero_or_pos n with rfl | hn
  · rw [numeral]
    rfl
  · have hzero : c ≠ '0' := numeral_head?_ne_zero hn c (by rw [hcons]; rfl)
    rw [hcons] at hdigits ⊢
    obtain ⟨-, ht⟩ := List.forall_mem_cons.mp hdigits
    rw [scanWhole, if_pos hc, List.takeWhile_eq_self_iff.mpr ht, List.dropWhile_eq_nil_iff.mpr ht]
    exact hzero

end JsonNumber

end MotionExport
