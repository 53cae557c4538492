import MotionExport.Latex.Result

/-! # Results term by term

Every rule for results looks at the first characters of a text, as many as it has classes of them,
and no blank is in any of the classes. So no rule reaches over a blank, and the terms of a result
that blanks separate are rewritten each by itself.
-/

namespace MotionExport

namespace RewritingRule

def startsIn : List (Char → Bool) → Text → Bool
  | [], _ => true
  | _ :: _, [] => false
  | p :: classes, c :: t => p c && startsIn classes t

/-- The rule that writes anew what starts with a character of each class in turn. -/
def ofClasses (classes : List (Char → Bool)) (write : Text → Text) : RewritingRule := fun t =>
  if startsIn classes t then some (write (t.take classes.length), classes.length) else none

def exactly (t : Text) : List (Char → Bool) := t.map fun c d => d = c

/-- The rule neither writes anything in the place of the character nor looks beyond it. -/
structure StopsAt (rule : RewritingRule) (c : Char) : Prop where
  append : ∀ s t, rule (s ++ c :: t) = rule s
  count : ∀ {s new n}, rule s = some (new, n) → 0 < n ∧ n ≤ s.length

variable {rule : RewritingRule} {classes : List (Char → Bool)} {write : Text → Text} {c : Char}
  {s t : Text} {p : Char → Bool}

theorem startsIn_nil : startsIn [] t = true := by cases t <;> rfl

theorem startsIn_cons_iff : startsIn (p :: classes) t = true ↔
    ∃ d rest, p d = true ∧ startsIn classes rest = true ∧ d :: rest = t := by
  cases t with
  | nil => simp [startsIn]
  | cons d t => simp [startsIn]

theorem startsIn_exactly_append_iff : startsIn (exactly s ++ classes) t = true ↔
    ∃ rest, startsIn classes rest = true ∧ s ++ rest = t := by
  induction s generalizing t with
  | nil => simp [exactly]
  | cons a s ih =>
    rw [exactly, List.map_cons, List.cons_append, startsIn_cons_iff]
    constructor
    · rintro ⟨d, rest, hd, hrest, rfl⟩
      obtain ⟨after, hafter, rfl⟩ := ih.mp hrest
      exact ⟨after, hafter, by rw [of_decide_eq_true hd]; rfl⟩
    · rintro ⟨rest, hrest, rfl⟩
      exact ⟨a, s ++ rest, decide_eq_true rfl, ih.mpr ⟨rest, hrest, rfl⟩, rfl⟩

theorem startsIn_append (h : classes.all (fun p => !p c) = true) (s t : Text) :
    startsIn classes (s ++ c :: t) = startsIn classes s := by
  induction classes generalizing s with
  | nil => cases s <;> rfl
  | cons p classes ih =>
    obtain ⟨hp, hclasses⟩ : p c = false ∧ classes.all (fun p => !p c) = true := by simpa using h
    cases s with
    | nil => simp [startsIn, hp]
    | cons d s => simp only [List.cons_append, startsIn, ih hclasses]

theorem length_le_of_startsIn (h : startsIn classes s = true) : classes.length ≤ s.length := by
  induction classes generalizing s with
  | nil => exact Nat.zero_le _
  | cons p classes ih =>
    obtain ⟨d, rest, -, hrest, rfl⟩ := startsIn_cons_iff.mp h
    exact Nat.succ_le_succ (ih hrest)

theorem stopsAt_ofClasses (hne : classes ≠ []) (h : classes.all (fun p => !p c) = true) :
    (ofClasses classes write).StopsAt c where
  append s t := by
    rw [ofClasses, ofClasses, startsIn_append h]
    split
    · rename_i hs
      rw [List.take_append_of_le_length (length_le_of_startsIn hs)]
    · rfl
  count {s new n} hs := by
    rw [ofClasses] at hs
    split at hs
    · rename_i hstarts
      cases hs
      exact ⟨List.length_pos_iff.mpr hne, length_le_of_startsIn hstarts⟩
    · cases hs

theorem literal_eq (old new : Text) : literal old new = ofClasses (exactly old) fun _ => new := by
  funext t
  have hstarts : t.startsWith old = startsIn (exactly old) t := by
    rw [Bool.eq_iff_iff, Text.startsWith, List.isPrefixOf_iff_prefix,
      ← List.append_nil (exactly old), startsIn_exactly_append_iff]
    simp only [startsIn_nil, true_and, List.IsPrefix]
  rw [literal, ofClasses, hstarts, exactly, List.length_map]

theorem applyAfter_append (h : rule.StopsAt c) {covered : Nat} (hcovered : covered ≤ s.length)
    (t : Text) : applyAfter rule covered (s ++ c :: t) =
      applyAfter rule covered s ++ c :: applyAfter rule 0 t := by
  induction s generalizing covered with
  | nil =>
    obtain rfl : covered = 0 := Nat.le_zero.mp hcovered
    have hnone : rule [] = none := by
      rw [Option.eq_none_iff_forall_ne_some]
      rintro ⟨new, n⟩ hnew
      obtain ⟨hpos, hle⟩ := h.count hnew
      exact absurd (Nat.lt_of_lt_of_le hpos hle) (Nat.lt_irrefl 0)
    have hstop : rule (c :: t) = none := (h.append [] t).trans hnone
    simp only [List.nil_append, applyAfter, hstop]
  | cons d s ih =>
    cases covered with
    | succ covered => exact ih (Nat.le_of_succ_le_succ hcovered)
    | zero =>
      have happend : rule (d :: (s ++ c :: t)) = rule (d :: s) := h.append (d :: s) t
      rw [List.cons_append, applyAfter, applyAfter, happend]
      split
      · rename_i new n hnew
        have hle : n ≤ s.length + 1 := (h.count hnew).2
        rw [ih (by omega), List.append_assoc]
      · rw [ih (Nat.zero_le _), List.cons_append]

theorem apply_append (h : rule.StopsAt c) (s t : Text) :
    rule.apply (s ++ c :: t) = rule.apply s ++ c :: rule.apply t :=
  applyAfter_append h (Nat.zero_le _) t

end RewritingRule

namespace Latex

open RewritingRule

/-! The texts that each rule is for. -/

section Classes

theorem sineOfCoordinate_eq : sineOfCoordinate =
    ofClasses (exactly "SIN(".toList ++ [isWordCharacter, isDecimalDigit, (· = ')')])
      fun old => "s_".toList ++ (old.drop 5).take 1 := by
  funext t
  fun_cases sineOfCoordinate t with
  | case1 w d rest h => simpa [ofClasses, startsIn, exactly] using h
  | case2 w d rest h => simpa [ofClasses, startsIn, exactly] using h
  | case3 t hnone =>
    rw [ofClasses, if_neg]
    simp only [startsIn_exactly_append_iff, startsIn_cons_iff, startsIn_nil, decide_eq_true_eq]
    rintro ⟨_, ⟨w, _, -, ⟨d, _, -, ⟨_, rest, rfl, -, rfl⟩, rfl⟩, rfl⟩, rfl⟩
    exact hnone w d rest rfl

theorem cosineOfCoordinate_eq : cosineOfCoordinate =
    ofClasses (exactly "COS(".toList ++ [isWordCharacter, isDecimalDigit, (· = ')')])
      fun old => "c_".toList ++ (old.drop 5).take 1 := by
  funext t
  fun_cases cosineOfCoordinate t with
  | case1 w d rest h => simpa [ofClasses, startsIn, exactly] using h
  | case2 w d rest h => simpa [ofClasses, startsIn, exactly] using h
  | case3 t hnone =>
    rw [ofClasses, if_neg]
    simp only [startsIn_exactly_append_iff, startsIn_cons_iff, startsIn_nil, decide_eq_true_eq]
    rintro ⟨_, ⟨w, _, -, ⟨d, _, -, ⟨_, rest, rfl, -, rfl⟩, rfl⟩, rfl⟩, rfl⟩
    exact hnone w d rest rfl

theorem unitVector_eq : unitVector = ofClasses [isWordCharacter, isDecimalDigit, (· = '>')]
    fun old => "\\hat\x7b".toList ++ old.take 1 ++ "\x7d_".toList ++ (old.drop 1).take 1 := by
  funext t
  fun_cases unitVector t with
  | case1 w d rest h => simpa [ofClasses, startsIn, and_comm] using h
  | case2 w d rest h => simpa [ofClasses, startsIn, and_comm] using h
  | case3 t hnone =>
    rw [ofClasses, if_neg]
    simp only [startsIn_cons_iff, startsIn_nil, decide_eq_true_eq]
    rintro ⟨w, _, -, ⟨d, _, -, ⟨_, rest, rfl, -, rfl⟩, rfl⟩, rfl⟩
    exact hnone w d rest rfl

theorem speedRate_eq : speedRate = ofClasses (exactly ['u'] ++ [isDecimalDigit, (· = '\x27')])
    fun old => "\\dot\x7bu\x7d_".toList ++ (old.drop 1).take 1 := by
  funext t
  fun_cases speedRate t with
  | case1 d rest h => simpa [ofClasses, startsIn, exactly] using h
  | case2 d rest h => simpa [ofClasses, startsIn, exactly] using h
  | case3 t hnone =>
    rw [ofClasses, if_neg]
    simp only [startsIn_exactly_append_iff, startsIn_cons_iff, startsIn_nil, decide_eq_true_eq]
    rintro ⟨_, ⟨d, _, -, ⟨_, rest, rfl, -, rfl⟩, rfl⟩, rfl⟩
    exact hnone d rest rfl

theorem subscript_eq : subscript = ofClasses [Char.isAlpha, isDecimalDigit]
    fun old => old.take 1 ++ ['_'] ++ (old.drop 1).take 1 := by
  funext t
  fun_cases subscript t with
  | case1 c d rest h => simpa [ofClasses, startsIn] using h
  | case2 c d rest h => simpa [ofClasses, startsIn] using h
  | case3 t hnone =>
    rw [ofClasses, if_neg]
    simp only [startsIn_cons_iff, startsIn_nil]
    rintro ⟨c, _, -, ⟨d, rest, -, -, rfl⟩, rfl⟩
    exact hnone c d rest rfl

theorem wheelRadius_eq : wheelRadius = ofClasses (exactly ['r'] ++ [fun c => c = 'R' || c = 'F'])
    fun old => "r_".toList ++ (old.drop 1).take 1 := by
  funext t
  fun_cases wheelRadius t with
  | case1 rest => rfl
  | case2 rest => rfl
  | case3 t hrear hfront =>
    rw [ofClasses, if_neg]
    simp only [startsIn_exactly_append_iff, startsIn_cons_iff, startsIn_nil, decide_eq_true_eq,
      Bool.or_eq_true]
    rintro ⟨_, ⟨_, rest, rfl | rfl, -, rfl⟩, rfl⟩
    · exact hrear rest rfl
    · exact hfront rest rfl

theorem angularVelocity_eq : angularVelocity =
    ofClasses (exactly "W_".toList ++ [Char.isLower, (· = '_'), Char.isLower, (· = '>')])
      fun old => ['^'] ++ ((old.drop 4).take 1).map Char.toUpper ++ "\\omega^".toList ++
        ((old.drop 2).take 1).map Char.toUpper := by
  funext t
  fun_cases angularVelocity t with
  | case1 a b rest h => simpa [ofClasses, startsIn, exactly] using h
  | case2 a b rest h => simpa [ofClasses, startsIn, exactly] using h
  | case3 t hnone =>
    rw [ofClasses, if_neg]
    simp only [startsIn_exactly_append_iff, startsIn_cons_iff, startsIn_nil, decide_eq_true_eq]
    rintro ⟨_, ⟨a, _, -, ⟨_, _, rfl, ⟨b, _, -, ⟨_, rest, rfl, -, rfl⟩, rfl⟩, rfl⟩, rfl⟩, rfl⟩
    exact hnone a b rest rfl

theorem decimalPower_eq : decimalPower =
    ofClasses (exactly ['^'] ++ [isDecimalDigit, (· = '.'), isDecimalDigit])
      fun old => "^\x7b".toList ++ old.drop 1 ++ "\x7d".toList := by
  funext t
  fun_cases decimalPower t with
  | case1 a b rest h => simpa [ofClasses, startsIn, exactly] using h
  | case2 a b rest h => simpa [ofClasses, startsIn, exactly] using h
  | case3 t hnone =>
    rw [ofClasses, if_neg]
    simp only [startsIn_exactly_append_iff, startsIn_cons_iff, startsIn_nil, decide_eq_true_eq]
    rintro ⟨_, ⟨a, _, -, ⟨_, _, rfl, ⟨b, rest, -, -, rfl⟩, rfl⟩, rfl⟩, rfl⟩
    exact hnone a b rest rfl

end Classes

section Blanks

theorem stopsAt_markingRules : ∀ rule ∈ markingRules, rule.StopsAt ' ' := by
  simp only [markingRules, List.forall_mem_cons, List.not_mem_nil, false_implies, implies_true,
    and_true, sine, cosine, literal_eq, sineOfCoordinate_eq, cosineOfCoordinate_eq, unitVector_eq,
    speedRate_eq, subscript_eq, wheelRadius_eq, angularVelocity_eq]
  refine ⟨?_, ?_, ?_, ?_, ?_, ?_, ?_, ?_, ?_⟩
  all_goals exact stopsAt_ofClasses (List.cons_ne_nil _ _) (by decide +kernel)

theorem stopsAt_closingRules (substituteMagnitude : Bool) :
    ∀ rule ∈ closingRules substituteMagnitude, rule.StopsAt ' ' := by
  have hpower : decimalPower.StopsAt ' ' := by
    rw [decimalPower_eq]
    exact stopsAt_ofClasses (List.cons_ne_nil _ _) (by decide +kernel)
  have hmagnitude : magnitude.StopsAt ' ' := by
    rw [magnitude, literal_eq]
    exact stopsAt_ofClasses (List.cons_ne_nil _ _) (by decide +kernel)
  cases substituteMagnitude with
  | true => exact List.forall_mem_cons.mpr ⟨hmagnitude, List.forall_mem_singleton.mpr hpower⟩
  | false => exact List.forall_mem_singleton.mpr hpower

/-- Rules that stop at a character are applied on each side of it by itself. -/
theorem applyAll_append {rules : List RewritingRule} {c : Char}
    (h : ∀ rule ∈ rules, rule.StopsAt c) (s t : Text) :
    applyAll rules (s ++ c :: t) = applyAll rules s ++ c :: applyAll rules t := by
  induction rules generalizing s t with
  | nil => rfl
  | cons rule rules ih =>
    obtain ⟨hrule, hrules⟩ := List.forall_mem_cons.mp h
    calc applyAll rules (rule.apply (s ++ c :: t))
        = applyAll rules (rule.apply s ++ c :: rule.apply t) := by rw [apply_append hrule]
      _ = applyAll rules (rule.apply s) ++ c :: applyAll rules (rule.apply t) := ih hrules _ _

theorem ofResult_append (substituteMagnitude : Bool) (a b : Text) :
    ofResult substituteMagnitude (a ++ ' ' :: b) =
      ofResult substituteMagnitude a ++ ' ' :: ofResult substituteMagnitude b := by
  have hkept : (' ' :: applyAll markingRules b).filter (· ≠ '*') =
      ' ' :: (applyAll markingRules b).filter (· ≠ '*') :=
    List.filter_cons_of_pos (by decide)
  rw [ofResult, applyAll_append stopsAt_markingRules, List.filter_append, hkept,
    applyAll_append (stopsAt_closingRules substituteMagnitude)]
  rfl

/-- A result is rewritten term by term: it does not matter which of the terms that blanks separate
are rewritten together. -/
theorem ofResult_term_by_term (substituteMagnitude : Bool) :
    (∀ a b : Text, ofResult substituteMagnitude (a ++ " ".toList ++ b) =
      ofResult substituteMagnitude a ++ " ".toList ++ ofResult substituteMagnitude b) ∧
    ∀ terms : List Text, ofResult substituteMagnitude (" ".toList.intercalate terms) =
      " ".toList.intercalate (terms.map (ofResult substituteMagnitude)) := by
  have happend : ∀ a b : Text, ofResult substituteMagnitude (a ++ " ".toList ++ b) =
      ofResult substituteMagnitude a ++ " ".toList ++ ofResult substituteMagnitude b := by
    intro a b
    simpa using ofResult_append substituteMagnitude a b
  refine ⟨happend, fun terms => ?_⟩
  induction terms with
  | nil => cases substituteMagnitude <;> rfl
  | cons term terms ih =>
    cases terms with
    | nil => simp
    | cons next terms =>
      rw [List.intercalate_cons_cons, happend, ih]
      exact List.intercalate_cons_cons.symm

end Blanks

end Latex

end MotionExport
