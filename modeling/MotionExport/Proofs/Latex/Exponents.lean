import Mathlib.Data.List.Forall2
import MotionExport.Proofs.Latex.SeparateTerms

/-! # Exponents in results

A result falls into what stands in front of its first caret and the exponents behind its carets. The
rule for decimal exponents, which comes last, rewrites every exponent by itself. It takes one digit
on each side of the point, so an exponent that is a decimal number with more digits is not put in
braces as a whole: digits behind the first decimal are left outside, and with more than one digit in
front of the point there are no braces.
-/

namespace MotionExport

namespace Latex

open RewritingRule

section Parts

def base (t : Text) : Text := (t.splitOn '^').headD []

def exponents (t : Text) : List Text := (t.splitOn '^').tail

def raised (b : Text) (es : List Text) : Text := b ++ es.flatMap ('^' :: ·)

variable {b e t : Text} {es : List Text}

theorem splitOn_caret (t : Text) : t.splitOn '^' = base t :: exponents t := by
  obtain ⟨b, es, h⟩ := List.exists_cons_of_ne_nil (List.splitOn_ne_nil '^' t)
  rw [base, exponents, h]
  rfl

theorem intercalate_caret (b : Text) (es : List Text) :
    ['^'].intercalate (b :: es) = raised b es := by
  induction es generalizing b with
  | nil => simp [raised]
  | cons e es ih =>
    rw [List.intercalate_cons_cons, ih e]
    simp [raised]

theorem raised_parts (t : Text) : raised (base t) (exponents t) = t := by
  rw [← intercalate_caret, ← splitOn_caret]
  exact List.intercalate_splitOn '^'

theorem caret_not_mem_of_mem_splitOn (h : e ∈ t.splitOn '^') : '^' ∉ e := by
  induction t generalizing e with
  | nil =>
    rw [List.splitOn_nil, List.mem_singleton] at h
    simp [h]
  | cons c t ih =>
    rw [List.splitOn_cons_eq_if_modifyHead, splitOn_caret] at h
    split at h
    · rcases List.mem_cons.mp h with rfl | h
      · exact List.not_mem_nil
      · exact ih (splitOn_caret t ▸ h)
    · rename_i hc
      rcases List.mem_cons.mp h with rfl | h
      · apply List.not_mem_cons_of_ne_of_not_mem
        · rintro rfl
          exact hc (beq_self_eq_true '^')
        · exact ih (splitOn_caret t ▸ List.mem_cons_self)
      · exact ih (splitOn_caret t ▸ List.mem_cons_of_mem _ h)

theorem caret_not_mem_base (t : Text) : '^' ∉ base t :=
  caret_not_mem_of_mem_splitOn (splitOn_caret t ▸ List.mem_cons_self)

theorem caret_not_mem_exponents (h : e ∈ exponents t) : '^' ∉ e :=
  caret_not_mem_of_mem_splitOn (splitOn_caret t ▸ List.mem_cons_of_mem _ h)

theorem parts_raised (hb : '^' ∉ b) (hes : ∀ e ∈ es, '^' ∉ e) :
    base (raised b es) = b ∧ exponents (raised b es) = es := by
  have hsplit : (raised b es).splitOn '^' = b :: es := by
    rw [← intercalate_caret]
    exact List.splitOn_intercalate '^' (List.forall_mem_cons.mpr ⟨hb, hes⟩) (List.cons_ne_nil b es)
  rw [splitOn_caret] at hsplit
  exact List.cons.inj hsplit

end Parts

section Braces

def pointedDigits : List (Char → Bool) := [isDecimalDigit, (· = '.'), isDecimalDigit]

/-- An exponent as the rule for decimal exponents leaves it. -/
def braced (e : Text) : Text :=
  if startsIn pointedDigits e then ['\x7b'] ++ e.take 3 ++ ['\x7d'] ++ e.drop 3 else e

variable {b e t : Text} {es : List Text}

theorem decimalPower_of_ne {c : Char} (h : c ≠ '^') (t : Text) : decimalPower (c :: t) = none := by
  unfold decimalPower
  split
  · rename_i heq
    exact absurd (List.cons.inj heq).1 h
  · rfl

theorem decimalPower_caret (t : Text) : decimalPower ('^' :: t) =
    if startsIn pointedDigits t then some (['^', '\x7b'] ++ t.take 3 ++ ['\x7d'], 4) else none := by
  rw [decimalPower_eq]
  rfl

theorem applyAfter_decimalPower_append (h : '^' ∉ e) {covered : Nat} (hcovered : covered ≤ e.length)
    (t : Text) : applyAfter decimalPower covered (e ++ t) =
      e.drop covered ++ applyAfter decimalPower 0 t := by
  induction e generalizing covered with
  | nil =>
    obtain rfl : covered = 0 := Nat.le_zero.mp hcovered
    rfl
  | cons c e ih =>
    obtain ⟨hc, he⟩ := List.ne_and_not_mem_of_not_mem_cons h
    cases covered with
    | zero =>
      rw [List.cons_append, applyAfter, decimalPower_of_ne hc.symm, ih he (Nat.zero_le _)]
      rfl
    | succ covered => exact ih he (Nat.le_of_succ_le_succ hcovered)

theorem startsIn_pointedDigits_append (e : Text) (es : List Text) :
    startsIn pointedDigits (e ++ es.flatMap ('^' :: ·)) = startsIn pointedDigits e := by
  cases es with
  | nil => simp
  | cons e' es =>
    rw [List.flatMap_cons, List.cons_append]
    exact startsIn_append (by decide +kernel) _ _

theorem applyAfter_decimalPower_exponents (h : ∀ e ∈ es, '^' ∉ e) :
    applyAfter decimalPower 0 (es.flatMap ('^' :: ·)) = (es.map braced).flatMap ('^' :: ·) := by
  induction es with
  | nil => rfl
  | cons e es ih =>
    obtain ⟨he, hes⟩ := List.forall_mem_cons.mp h
    rw [List.flatMap_cons, List.cons_append, applyAfter, decimalPower_caret,
      startsIn_pointedDigits_append, List.map_cons, List.flatMap_cons, braced, ← ih hes]
    by_cases hpointed : startsIn pointedDigits e = true
    · -- The braces take three characters of this exponent, and the rule goes on behind them.
      have hlength : 3 ≤ e.length := length_le_of_startsIn hpointed
      simp [hpointed, applyAfter_decimalPower_append he hlength,
        List.take_append_of_le_length hlength]
    · simp [hpointed, applyAfter_decimalPower_append he (Nat.zero_le _)]

theorem apply_decimalPower (t : Text) :
    decimalPower.apply t = raised (base t) ((exponents t).map braced) := by
  have hparts : decimalPower.apply t = decimalPower.apply (raised (base t) (exponents t)) := by
    rw [raised_parts]
  rw [hparts, apply, raised, applyAfter_decimalPower_append (caret_not_mem_base t) (Nat.zero_le _),
    applyAfter_decimalPower_exponents fun e he => caret_not_mem_exponents he]
  rfl

theorem caret_not_mem_braced (h : '^' ∉ e) : '^' ∉ braced e := by
  unfold braced
  split
  · have htake : '^' ∉ e.take 3 := fun hmem => h (List.mem_of_mem_take hmem)
    have hdrop : '^' ∉ e.drop 3 := fun hmem => h (List.mem_of_mem_drop hmem)
    simp [htake, hdrop]
  · exact h

theorem parts_apply_decimalPower (t : Text) : base (decimalPower.apply t) = base t ∧
    exponents (decimalPower.apply t) = (exponents t).map braced := by
  rw [apply_decimalPower]
  apply parts_raised (caret_not_mem_base t)
  intro e he
  obtain ⟨e', he', rfl⟩ := List.mem_map.mp he
  exact caret_not_mem_braced (caret_not_mem_exponents he')

end Braces

section Decimals

/-- An exponent starts with a decimal number: ASCII digits on both sides of a point, as many as
there are. -/
structure StartsWithDecimal (e whole fraction rest : Text) : Prop where
  eq : e = whole ++ '.' :: fraction ++ rest
  whole_ne_nil : whole ≠ []
  fraction_ne_nil : fraction ≠ []
  whole_digits : ∀ c ∈ whole, c.isDigit = true
  fraction_digits : ∀ c ∈ fraction, c.isDigit = true
  rest_stops : ∀ c ∈ rest.head?, c.isDigit = false

/-- The exponent with its decimal number in braces as a whole. -/
def bracedDecimal (whole fraction rest : Text) : Text :=
  ['\x7b'] ++ whole ++ '.' :: fraction ++ ['\x7d'] ++ rest

variable {e whole fraction rest : Text}

theorem isDecimalDigit_of_isDigit {c : Char} (h : c.isDigit = true) : isDecimalDigit c = true := by
  rw [Char.isDigit, Bool.and_eq_true, decide_eq_true_eq, decide_eq_true_eq] at h
  unfold isDecimalDigit
  rw [List.any_eq_true]
  refine ⟨(0x30, 0x39), List.mem_cons_self, ?_⟩
  rw [Bool.and_eq_true, decide_eq_true_eq, decide_eq_true_eq]
  exact h

/-- The first digit behind the point goes into the braces with one digit in front of it. With more
digits in front of it there are no braces. -/
theorem StartsWithDecimal.braced_eq (h : StartsWithDecimal e whole fraction rest) : braced e =
    if whole.length = 1 then bracedDecimal whole (fraction.take 1) (fraction.drop 1 ++ rest)
    else e := by
  obtain ⟨rfl, hwhole, hfraction, hdigits, hdecimals, -⟩ := h
  obtain ⟨a, whole, rfl⟩ := List.exists_cons_of_ne_nil hwhole
  obtain ⟨d, fraction, rfl⟩ := List.exists_cons_of_ne_nil hfraction
  have ha : isDecimalDigit a = true := isDecimalDigit_of_isDigit (hdigits a List.mem_cons_self)
  have hd : isDecimalDigit d = true := isDecimalDigit_of_isDigit (hdecimals d List.mem_cons_self)
  cases whole with
  | nil => simp [braced, pointedDigits, startsIn, ha, hd, bracedDecimal]
  | cons a' whole =>
    have ha' : a' ≠ '.' := by
      rintro rfl
      exact absurd (hdigits '.' (by simp)) (by decide)
    simp [braced, pointedDigits, startsIn, ha']

theorem StartsWithDecimal.braced_eq_iff (h : StartsWithDecimal e whole fraction rest) :
    braced e = bracedDecimal whole fraction rest ↔ whole.length = 1 ∧ fraction.length = 1 := by
  rw [h.braced_eq]
  constructor
  · intro heq
    split at heq
    case isTrue hone =>
      refine ⟨hone, ?_⟩
      obtain ⟨d, more, hfraction⟩ := List.exists_cons_of_ne_nil h.fraction_ne_nil
      cases more with
      | nil => rw [hfraction, List.length_singleton]
      | cons d' more =>
        -- The closing brace stands where the second digit should.
        have hbrace : d' = '\x7d' := by
          simp only [hfraction, bracedDecimal, List.take_succ_cons, List.take_zero,
            List.drop_succ_cons, List.drop_zero, List.append_assoc, List.cons_append,
            List.append_cancel_left_eq, List.cons.injEq, true_and, List.nil_append] at heq
          exact heq.1.symm
        have hdigit : d'.isDigit = true := h.fraction_digits d' (by simp [hfraction])
        rw [hbrace] at hdigit
        contradiction
    case isFalse =>
      have hlength := congrArg List.length heq
      rw [h.eq] at hlength
      simp only [bracedDecimal, List.length_append, List.length_cons, List.length_nil] at hlength
      omega
  · rintro ⟨hwhole, hfraction⟩
    obtain ⟨d, rfl⟩ := List.length_eq_one_iff.mp hfraction
    rw [if_pos hwhole]
    rfl

end Decimals

section Results

def beforeExponents (substituteMagnitude : Bool) (t : Text) : Text :=
  let marked := (applyAll markingRules t).filter (· ≠ '*')
  if substituteMagnitude then magnitude.apply marked else marked

theorem ofResult_eq (substituteMagnitude : Bool) (t : Text) : ofResult substituteMagnitude t =
    decimalPower.apply (beforeExponents substituteMagnitude t) := by
  cases substituteMagnitude with
  | false => rfl
  | true => rfl

/-- Every exponent that starts with a decimal number has this number in braces as a whole. -/
structure BracesDecimals (before after : Text) : Prop where
  base_eq : base after = base before
  exponents_braced : List.Forall₂ (fun e e' => ∀ whole fraction rest,
    StartsWithDecimal e whole fraction rest → e' = bracedDecimal whole fraction rest)
    (exponents before) (exponents after)

/-- Every exponent of a result is rewritten by itself, and what becomes of a decimal number depends
on its digits. It is put in braces as a whole if and only if it has one digit on each side of the
point; with more behind the point only the first of them is in the braces, and with more in front of
it there are no braces. -/
theorem decimal_exponents_ofResult (substituteMagnitude : Bool) (t : Text) :
    base (ofResult substituteMagnitude t) = base (beforeExponents substituteMagnitude t) ∧
    exponents (ofResult substituteMagnitude t) =
      (exponents (beforeExponents substituteMagnitude t)).map braced ∧
    (∀ e whole fraction rest, StartsWithDecimal e whole fraction rest → braced e =
      if whole.length = 1 then bracedDecimal whole (fraction.take 1) (fraction.drop 1 ++ rest)
      else e) ∧
    (BracesDecimals (beforeExponents substituteMagnitude t) (ofResult substituteMagnitude t) ↔
      ∀ e ∈ exponents (beforeExponents substituteMagnitude t), ∀ whole fraction rest,
        StartsWithDecimal e whole fraction rest → whole.length = 1 ∧ fraction.length = 1) := by
  rw [ofResult_eq]
  obtain ⟨hbase, hexponents⟩ := parts_apply_decimalPower (beforeExponents substituteMagnitude t)
  refine ⟨hbase, hexponents, fun e whole fraction rest h => h.braced_eq, ?_⟩
  constructor
  · rintro ⟨-, hbraced⟩ e he whole fraction rest h
    rw [hexponents, List.forall₂_map_right_iff, List.forall₂_same] at hbraced
    exact h.braced_eq_iff.mp (hbraced e he whole fraction rest h)
  · intro hone
    refine ⟨hbase, ?_⟩
    rw [hexponents, List.forall₂_map_right_iff, List.forall₂_same]
    intro e he whole fraction rest h
    exact h.braced_eq_iff.mpr (hone e he whole fraction rest h)

def quarterPower : Text := "x^0.25".toList

/-- Of two decimals the second is left outside the braces. -/
theorem ofResult_quarterPower :
    ofResult false quarterPower = "x^\x7b0.2\x7d5".toList ∧
    ¬ BracesDecimals (beforeExponents false quarterPower) (ofResult false quarterPower) := by
  have hresult : ofResult false quarterPower = "x^\x7b0.2\x7d5".toList := by decide +kernel
  have hbefore : exponents (beforeExponents false quarterPower) = ["0.25".toList] := by
    decide +kernel
  have hafter : exponents (ofResult false quarterPower) = ["\x7b0.2\x7d5".toList] := by
    decide +kernel
  have hdecimal : StartsWithDecimal "0.25".toList "0".toList "25".toList [] :=
    ⟨rfl, by decide, by decide, by simp, by simp, by simp⟩
  refine ⟨hresult, ?_⟩
  rintro ⟨-, hbraced⟩
  rw [hbefore, hafter, List.forall₂_cons] at hbraced
  have hwhole := hbraced.1 _ _ _ hdecimal
  revert hwhole
  decide

end Results

end Latex

end MotionExport
