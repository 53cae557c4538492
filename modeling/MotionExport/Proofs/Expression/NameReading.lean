import MotionExport.Proofs.Expression.TokenRules

/-! # Reading names in rewritten expressions

Literals and auxiliary variables are rewritten independently of each other: the order does not
matter. Widening literals leaves alone all names that are read. Scoping takes away those that an
auxiliary variable contributes, and no others.
-/

namespace MotionExport

namespace Expression

open Token (scan)

variable {c : Char} {d : Nat} {t : Token} {b : Option Token} {ts rest : List Token}

section Reading

theorem isMark_of_isIdentifier (h : t.isIdentifier = true) : t.isMark c = false := by
  have hk : t.kind = .identifier := of_decide_eq_true h
  simp [Token.isMark, hk]

theorem nameRead?_of_not_free (h : isFreeAuxiliary b t rest = false) : nameRead? b t rest =
    if t.isIdentifier && !isMember b && !opensUse rest then some t.text else none := by
  by_cases hread : (t.isIdentifier && !isMember b && !opensUse rest) = true
  · have hname : auxiliaryName? t rest = none := by
      unfold auxiliaryName?
      split
      · rename_i opening index closing rest
        rw [if_neg]
        intro hauxiliary
        simp only [Bool.and_eq_true, decide_eq_true_eq, Bool.not_eq_true'] at hread hauxiliary
        simp [isFreeAuxiliary, hread, hauxiliary] at h
      · rfl
    rw [nameRead?, hname, Option.getD_none]
  · rw [nameRead?, if_neg hread, if_neg hread]

theorem namesReadBy_of_kind (ht : t.kind ≠ .identifier) :
    namesReadBy b (t :: ts) = namesReadBy (some t) ts := by
  simp [namesReadBy, nameRead?, Token.isIdentifier, ht]

end Reading

section Widening

def widened (d : Nat) (t : Token) : Token :=
  if isWholeLiteral t && d = 0 then ⟨.number, t.text ++ ".0".toList⟩ else t

theorem widenTokens_cons (d : Nat) (t : Token) (ts : List Token) :
    widenTokens d (t :: ts) = widened d t :: widenTokens (depthAfter d t) ts := rfl

theorem widened_of_kind (h : t.kind ≠ .number) : widened d t = t := by
  simp [widened, isWholeLiteral, h]

theorem widened_of_pos (h : 0 < d) : widened d t = t := by
  simp [widened, Nat.ne_of_gt h]

theorem kind_widened : (widened d t).kind = t.kind := by
  unfold widened
  split
  · rename_i hwhole
    simp only [isWholeLiteral, Bool.and_eq_true, decide_eq_true_eq] at hwhole
    exact hwhole.1.1.symm
  · rfl

theorem isIdentifier_widened : (widened d t).isIdentifier = t.isIdentifier := by
  rw [Token.isIdentifier, Token.isIdentifier, kind_widened]

theorem isMark_widened : (widened d t).isMark c = t.isMark c := by
  by_cases ht : t.kind = .number
  · simp [Token.isMark, kind_widened, ht]
  · rw [widened_of_kind ht]

theorem isMember_widened : isMember (some (widened d t)) = isMember (some t) :=
  isMark_widened

theorem head?_widenTokens :
    (widenTokens d ts).head?.any (·.isMark c) = ts.head?.any (·.isMark c) := by
  cases ts with
  | nil => rfl
  | cons t ts => exact isMark_widened

theorem opensUse_widenTokens : opensUse (widenTokens d ts) = opensUse ts := by
  cases ts with
  | nil => rfl
  | cons t ts =>
    show ((widened d t).isMark '(' || (widened d t).isMark '.') = _
    rw [isMark_widened, isMark_widened]
    rfl

theorem isFreeAuxiliary_widened (d' : Nat) :
    isFreeAuxiliary b (widened d t) (widenTokens d' ts) = isFreeAuxiliary b t ts := by
  rw [isFreeAuxiliary, isFreeAuxiliary, isIdentifier_widened, head?_widenTokens]
  by_cases ht : t.kind = .number
  · simp [Token.isIdentifier, ht]
  · rw [widened_of_kind ht]

/-- It does not matter whether literals or auxiliary variables are rewritten first. -/
theorem scopeTokens_widenTokens :
    scopeTokens b (widenTokens d ts) = widenTokens d (scopeTokens b ts) := by
  induction ts generalizing b d with
  | nil => rfl
  | cons t ts ih =>
    have hrest : scopeTokens (some (widened d t)) (widenTokens (depthAfter d t) ts) =
        widenTokens (depthAfter d t) (scopeTokens (some t) ts) :=
      (scopeTokens_congr isMember_widened).trans ih
    rw [widenTokens_cons, scopeTokens, scopeTokens, isFreeAuxiliary_widened, hrest]
    split
    · rfl
    · rfl

/-- The index of an auxiliary variable stands in brackets, so it is read as it was. -/
theorem auxiliaryName?_widenTokens : auxiliaryName? t (widenTokens d ts) = auxiliaryName? t ts := by
  rcases ts with _ | ⟨opening, _ | ⟨index, _ | ⟨closing, rest⟩⟩⟩
  · rfl
  · rfl
  · rfl
  · rw [widenTokens_cons, widenTokens_cons, widenTokens_cons, auxiliaryName?, auxiliaryName?,
      isMark_widened, isMark_widened]
    by_cases hopen : opening.isMark '[' = true
    · rw [widened_of_pos (t := index)]
      simp [depthAfter, hopen]
    · simp [hopen]

theorem nameRead?_widened (d' : Nat) :
    nameRead? b (widened d t) (widenTokens d' ts) = nameRead? b t ts := by
  rw [nameRead?, nameRead?, isIdentifier_widened, opensUse_widenTokens]
  by_cases ht : t.kind = .number
  · simp [Token.isIdentifier, ht]
  · rw [widened_of_kind ht, auxiliaryName?_widenTokens]

theorem namesReadBy_congr {b' : Option Token} (h : isMember b = isMember b') :
    namesReadBy b ts = namesReadBy b' ts := by
  cases ts with
  | nil => rfl
  | cons t ts => rw [namesReadBy, namesReadBy, nameRead?, nameRead?, h]

theorem namesReadBy_widenTokens : namesReadBy b (widenTokens d ts) = namesReadBy b ts := by
  induction ts generalizing b d with
  | nil => rfl
  | cons t ts ih =>
    rw [widenTokens_cons, namesReadBy, namesReadBy, nameRead?_widened,
      namesReadBy_congr isMember_widened, ih]

end Widening

section Scoping

/-- A name that an expression reads. -/
structure Reading where
  name : Text
  /-- The name is contributed by a `z` that an opening bracket follows. -/
  ofAuxiliary : Bool
  deriving DecidableEq

/-- The names that a row of tokens reads, after the token `before`, with where they come from. -/
def readingsBy (before : Option Token) : List Token → List Reading
  | [] => []
  | t :: rest =>
    ((nameRead? before t rest).map fun name =>
      ⟨name, t.text = ['z'] && rest.head?.any (·.isMark '[')⟩).toList ++ readingsBy (some t) rest

def readings (t : Text) : List Reading := readingsBy none (scan t)

theorem map_name_readingsBy : (readingsBy b ts).map Reading.name = namesReadBy b ts := by
  induction ts generalizing b with
  | nil => rfl
  | cons t ts ih =>
    rw [readingsBy, namesReadBy, List.map_append, ih]
    cases nameRead? b t ts with
    | none => rfl
    | some name => rfl

theorem head?_scopeTokens {p : Token → Bool}
    (hp : ∀ t : Token, t.isIdentifier = true → p t = false) :
    (scopeTokens b ts).head?.any p = ts.head?.any p := by
  cases ts with
  | nil => rfl
  | cons t ts =>
    rw [scopeTokens]
    split
    · rename_i hfree
      simp only [isFreeAuxiliary, Bool.and_eq_true] at hfree
      exact (hp ownerToken rfl).trans (hp t hfree.1.1.1).symm
    · rfl

theorem opensUse_scopeTokens : opensUse (scopeTokens b ts) = opensUse ts :=
  head?_scopeTokens fun t ht => by rw [isMark_of_isIdentifier ht, isMark_of_isIdentifier ht]; rfl

theorem namesReadBy_scoped :
    namesReadBy b (ownerToken :: mark '.' :: t :: ts) = namesReadBy (some t) ts := by
  have howner : nameRead? b ownerToken (mark '.' :: t :: ts) = none := by
    simp [nameRead?, opensUse, Token.isMark, mark]
  have hmember : nameRead? (some (mark '.')) t ts = none := by
    simp [nameRead?, isMember, Token.isMark, mark]
  rw [namesReadBy, howner, namesReadBy_of_kind (by simp [mark]), namesReadBy, hmember]
  rfl

/-- Of the names that were read before, those of auxiliary variables are read no longer. -/
theorem namesReadBy_scopeTokens : namesReadBy b (scopeTokens b ts) =
    ((readingsBy b ts).filter fun r => r.ofAuxiliary = false).map Reading.name := by
  induction ts generalizing b with
  | nil => rfl
  | cons t ts ih =>
    rw [scopeTokens, readingsBy, List.filter_append, List.map_append, ← ih]
    split
    · rename_i hfree
      simp only [isFreeAuxiliary, Bool.and_eq_true, decide_eq_true_eq] at hfree
      rw [namesReadBy_scoped]
      cases nameRead? b t ts with
      | none => rfl
      | some name => simp [hfree]
    · rename_i hfree
      have hkept : isFreeAuxiliary b t (scopeTokens (some t) ts) = false := by
        rw [isFreeAuxiliary, head?_scopeTokens fun t ht => isMark_of_isIdentifier ht]
        exact Bool.eq_false_iff.mpr hfree
      rw [namesReadBy, nameRead?_of_not_free hkept,
        nameRead?_of_not_free (Bool.eq_false_iff.mpr hfree), opensUse_scopeTokens]
      split
      · rename_i hread
        simp only [Bool.and_eq_true] at hread
        have hplain : (decide (t.text = ['z']) && ts.head?.any (·.isMark '[')) = false := by
          simpa [isFreeAuxiliary, hread] using hfree
        simp [hplain]
      · rfl

end Scoping

section Texts

theorem scopeAuxiliaries_widenLiterals (t : Text) :
    scopeAuxiliaries (widenLiterals t) = widenLiterals (scopeAuxiliaries t) := by
  rw [scopeAuxiliaries, onTokens, scan_widenLiterals, scopeTokens_widenTokens,
    ← scan_scopeAuxiliaries]
  rfl

theorem namesRead_widenLiterals (t : Text) : namesRead (widenLiterals t) = namesRead t := by
  rw [namesRead, scan_widenLiterals, namesReadBy_widenTokens, namesRead]

theorem map_name_readings (t : Text) : (readings t).map Reading.name = namesRead t :=
  map_name_readingsBy

theorem namesRead_scopeAuxiliaries (t : Text) : namesRead (scopeAuxiliaries t) =
    ((readings t).filter fun r => r.ofAuxiliary = false).map Reading.name := by
  rw [namesRead, scan_scopeAuxiliaries, namesReadBy_scopeTokens, readings]

end Texts

end Expression

end MotionExport
