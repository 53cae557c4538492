import MotionExport.Code.Block
import MotionExport.Proofs.Expression.TokenRules

/-! # The right sides of the linear model

Literals, auxiliary variables and references to matrix entries are rewritten one after the other.
All of that together is one rewriting by tokens: no rewriting hides from a later one what it is for,
or shows it more than there was.
-/

namespace MotionExport

namespace Expression

open Token (Stand scan)

variable {before after out ts rest : List Token} {t : Token} {b b' : Option Token} {depth : Nat}

section Steps

variable {names targets : List Text} {style : IndexStyle}

theorem retargetTokens_congr (h : isMember b = isMember b') :
    retargetTokens names targets style 0 b ts = retargetTokens names targets style 0 b' ts := by
  cases ts with
  | nil => rfl
  | cons t ts => simp only [retargetTokens, h]

theorem retargetTokens_of_kind (ht : t.kind ≠ .identifier) :
    retargetTokens names targets style 0 b (t :: ts) =
      t :: retargetTokens names targets style 0 (some t) ts := by
  simp [retargetTokens, Token.isIdentifier, ht]

theorem retargetTokens_of_member (hb : isMember b = true) :
    retargetTokens names targets style 0 b (t :: ts) =
      t :: retargetTokens names targets style 0 (some t) ts := by
  simp [retargetTokens, hb]

theorem retargetTokens_owner : retargetTokens names targets style 0 b (t :: mark '.' :: ts) =
    t :: mark '.' :: retargetTokens names targets style 0 (some (mark '.')) ts := by
  have hindices : elementIndices? (mark '.' :: ts) = none := by
    rw [Option.eq_none_iff_forall_ne_some]
    rintro ⟨row, column⟩ h
    obtain ⟨-, -, rest, heq⟩ := elementIndices?_eq_some_iff.mp h
    cases heq
  rw [retargetTokens, hindices]
  split
  · contradiction
  · rw [retargetTokens_of_kind (by simp [mark])]

end Steps

end Expression

namespace Code

open Expression

open Token (Stand scan)

variable {lang : Language} {names : List Text} {before after old new out ts rest : List Token}
  {t : Token} {depth : Nat}

section Literals

def WidensFor (lang : Language) : Rule := fun before old after new =>
  lang = .rust ∧ WidensLiteral before old after new

def literalTokens : Language → Nat → List Token → List Token
  | .rust, depth, ts => widenTokens depth ts
  | .python, _, ts => ts

theorem keepsApart_widensFor : (WidensFor lang).KeepsApart := by
  rintro before old after new out ⟨-, h⟩
  exact keepsApart_widensLiteral before old after new out h

theorem guides_widensFor :
    (WidensFor lang).Guides fun before => literalTokens lang (bracketDepth before) where
  consumes := fun ⟨_, h⟩ => guides_widensLiteral.consumes h
  nil _ := by cases lang <;> rfl
  expand := by
    rintro before old after new ⟨rfl, h⟩
    exact guides_widensLiteral.expand h
  keep := by
    intro before t after hts h
    cases lang with
    | rust =>
      refine guides_widensLiteral.keep hts fun ⟨old, after, new, heq, hr⟩ => h ?_
      exact ⟨old, after, new, heq, rfl, hr⟩
    | python => rfl

theorem literalTokens_of_kind (ht : t.kind ≠ .number) :
    literalTokens lang depth (t :: ts) = t :: literalTokens lang (depthAfter depth t) ts := by
  cases lang with
  | rust => simp [literalTokens, widenTokens, isWholeLiteral, ht]
  | python => rfl

theorem depthAfter_of_kind (ht : t.kind ≠ .punctuation) : depthAfter depth t = depth := by
  simp [depthAfter, Token.isMark, ht]

theorem literalTokens_reference {name : Text} {row column : Token} (hrow : row.kind = .number)
    (hcolumn : column.kind = .number) :
    literalTokens lang depth (referenceTokens name row column ++ ts) =
      referenceTokens name row column ++ literalTokens lang depth ts := by
  cases lang with
  | python => rfl
  | rust => simp [literalTokens, referenceTokens, widenTokens, isWholeLiteral, depthAfter,
      Token.isMark, mark, hrow, hcolumn]

/-- A token other than a literal outside of brackets was there before the literals were widened. -/
theorem exists_of_literalTokens (h : literalTokens lang depth ts = t :: out)
    (ht : t.kind = .number → 0 < depth) :
    ∃ rest, ts = t :: rest ∧ literalTokens lang (depthAfter depth t) rest = out := by
  cases lang with
  | python => exact ⟨out, h, rfl⟩
  | rust =>
    cases ts with
    | nil => cases h
    | cons x rest =>
      obtain ⟨hx, hrest⟩ := List.cons.inj h
      split at hx
      · rename_i hwide
        rw [Bool.and_eq_true, decide_eq_true_eq] at hwide
        rw [← hx] at ht
        exact absurd (ht rfl) (by omega)
      · rw [← hx]
        exact ⟨rest, rfl, hrest⟩

theorem exists_of_literalTokens_mark {c : Char} (h : literalTokens lang depth ts = mark c :: out) :
    ∃ rest, ts = mark c :: rest ∧ literalTokens lang (depthAfter depth (mark c)) rest = out :=
  exists_of_literalTokens h fun hnumber => by cases hnumber

theorem exists_of_literalTokens_indices {row column : Token} (hrow : row.kind = .number)
    (h : literalTokens lang depth ts = IndexStyle.nested.indexTokens row column ++ out) :
    ∃ rest, ts = IndexStyle.nested.indexTokens row column ++ rest := by
  have hinside : 0 < depthAfter depth (mark '[') := Nat.succ_pos depth
  have hdepth : depthAfter (depthAfter (depthAfter depth (mark '[')) row) (mark ']') = depth := by
    simp [depthAfter, Token.isMark, mark, hrow]
  obtain ⟨_, rfl, h₁⟩ := exists_of_literalTokens_mark h
  obtain ⟨_, rfl, h₂⟩ := exists_of_literalTokens h₁ fun _ => hinside
  obtain ⟨_, rfl, h₃⟩ := exists_of_literalTokens_mark h₂
  rw [hdepth] at h₃
  obtain ⟨_, rfl, h₄⟩ := exists_of_literalTokens_mark h₃
  obtain ⟨_, rfl, h₅⟩ := exists_of_literalTokens h₄ fun _ => hinside
  obtain ⟨rest, rfl, -⟩ := exists_of_literalTokens_mark h₅
  exact ⟨rest, rfl⟩

end Literals

section References

variable {targets : List Text} {name target : Text} {row column : Token} {b : Option Token}

theorem scopeTokens_reference (hrow : row.kind = .number) (hcolumn : column.kind = .number)
    (hname : name ≠ ['z']) : scopeTokens b (referenceTokens name row column ++ ts) =
      referenceTokens name row column ++ scopeTokens (some (mark ']')) ts := by
  simp [referenceTokens, scopeTokens, isFreeAuxiliary, Token.isIdentifier, mark, hrow, hcolumn,
    hname]

theorem bracketDepth_reference (hrow : row.kind = .number) (hcolumn : column.kind = .number) :
    bracketDepth (before ++ referenceTokens name row column) = bracketDepth before := by
  rw [bracketDepth, List.foldl_append, ← bracketDepth]
  simp [referenceTokens, depthAfter, Token.isMark, mark, hrow, hcolumn]

theorem targetOf?_eq_some_iff (h : names.Nodup) : targetOf? names targets name = some target ↔
    ∃ k : Nat, names[k]? = some name ∧ targets[k]? = some target := by
  simp only [targetOf?, Option.bind_eq_some_iff, List.findIdx?_eq_some_iff_getElem,
    decide_eq_true_eq]
  constructor
  · rintro ⟨k, ⟨hk, hname, -⟩, htarget⟩
    exact ⟨k, List.getElem?_eq_some_iff.mpr ⟨hk, hname⟩, htarget⟩
  · rintro ⟨k, hname, htarget⟩
    obtain ⟨hk, hname⟩ := List.getElem?_eq_some_iff.mp hname
    refine ⟨k, ⟨hk, hname, fun j hj hsame => ?_⟩, htarget⟩
    have hjk : names[j]? = names[k]? := by
      rw [List.getElem?_eq_getElem (by omega), List.getElem?_eq_getElem hk, hsame, hname]
    exact absurd ((List.getElem?_inj (by omega) h).mp hjk) (by omega)

end References

section Linear

variable {name target : Text} {row column : Token}

/-- What is written anew on a right side of the linear model: a literal, an auxiliary variable, or a
reference to an entry of the matrix of one place, which becomes an entry of the target of that
place. -/
inductive RewritesLinear (lang : Language) (names : List Text) : Rule
  | literal {before old after new : List Token} : WidensFor lang before old after new →
      RewritesLinear lang names before old after new
  | auxiliary {before old after new : List Token} : ScopesAuxiliary before old after new →
      RewritesLinear lang names before old after new
  | reference {before after : List Token} {k : Nat} {name target : Text} {row column : Token} :
      names[k]? = some name → lang.matrixTargets[k]? = some target → row.kind = .number →
        column.kind = .number → isMember before.getLast? = false →
          RewritesLinear lang names before (referenceTokens name row column) after
            (scan target ++ lang.indexStyle.indexTokens row column)

def linearTokens (lang : Language) (names : List Text) (before ts : List Token) : List Token :=
  retargetTokens names lang.matrixTargets lang.indexStyle 0 before.getLast?
    (scopeTokens before.getLast? (literalTokens lang (bracketDepth before) ts))

theorem linearTokens_literal (h : WidensFor lang before old after new) :
    linearTokens lang names before (old ++ after) =
      new ++ linearTokens lang names (before ++ old) after := by
  have hwide := guides_widensFor.expand h
  obtain ⟨-, -, -⟩ := h
  rename_i digits
  have hb : isMember (some ⟨.number, digits ++ ".0".toList⟩) =
      isMember (some ⟨.number, digits⟩) := rfl
  unfold linearTokens
  rw [hwide, List.singleton_append, scopeTokens_of_kind (by simp), retargetTokens_of_kind (by simp),
    scopeTokens_congr hb, retargetTokens_congr hb, List.getLast?_concat, List.singleton_append]

theorem linearTokens_auxiliary (h : ScopesAuxiliary before old after new) :
    linearTokens lang names before (old ++ after) =
      new ++ linearTokens lang names (before ++ old) after := by
  obtain ⟨hb⟩ := h
  rename_i rest
  have hliteral : ∀ depth, literalTokens lang depth (mark '[' :: rest) =
      mark '[' :: literalTokens lang (depth + 1) rest :=
    fun _ => literalTokens_of_kind (by simp [mark])
  have hscope : ∀ ts, scopeTokens before.getLast? ([auxiliaryToken] ++ mark '[' :: ts) =
      [ownerToken, mark '.', auxiliaryToken] ++
        scopeTokens (before ++ [auxiliaryToken]).getLast? (mark '[' :: ts) :=
    fun _ => guides_scopesAuxiliary.expand (.intro hb)
  unfold linearTokens
  rw [List.singleton_append, literalTokens_of_kind (by simp [auxiliaryToken]), bracketDepth_concat,
    depthAfter_of_kind (by simp [auxiliaryToken]), hliteral, ← List.singleton_append, hscope]
  show retargetTokens _ _ _ _ _ (ownerToken :: mark '.' :: auxiliaryToken :: _) = _
  rw [retargetTokens_owner, retargetTokens_of_member rfl, List.getLast?_concat]
  rfl

theorem linearTokens_reference (hname : name ≠ ['z']) (hrow : row.kind = .number)
    (hcolumn : column.kind = .number) (hb : isMember before.getLast? = false)
    (htarget : targetOf? names lang.matrixTargets name = some target) :
    linearTokens lang names before (referenceTokens name row column ++ after) =
      scan target ++ lang.indexStyle.indexTokens row column ++
        linearTokens lang names (before ++ referenceTokens name row column) after := by
  have hlast : (before ++ referenceTokens name row column).getLast? = some (mark ']') := by
    simp [referenceTokens]
  unfold linearTokens
  rw [literalTokens_reference hrow hcolumn, scopeTokens_reference hrow hcolumn hname,
    bracketDepth_reference hrow hcolumn, ← hlast]
  exact guides_retargetsReference.expand (.intro hrow hcolumn htarget hb)

/-- A token that starts nothing to be rewritten starts nothing once all behind it is rewritten. -/
theorem linearTokens_keep (hnames : names.Nodup) (hts : Stand (t :: after))
    (h : ¬ (RewritesLinear lang names).AppliesTo before (t :: after)) :
    linearTokens lang names before (t :: after) =
      t :: linearTokens lang names (before ++ [t]) after := by
  let widened := literalTokens lang (bracketDepth (before ++ [t])) after
  let owned := scopeTokens (before ++ [t]).getLast? widened
  have hwide : literalTokens lang (bracketDepth before) (t :: after) = t :: widened :=
    guides_widensFor.keep hts fun ⟨old, rest, new, heq, hr⟩ =>
      h ⟨old, rest, new, heq, .literal hr⟩
  have hwidened : Stand (t :: widened) := by
    rw [← hwide]
    exact guides_widensFor.stand keepsApart_widensFor hts
  have hscope : scopeTokens before.getLast? (t :: widened) = t :: owned := by
    refine guides_scopesAuxiliary.keep hwidened ?_
    rintro ⟨_, _, _, heq, ⟨hb⟩⟩
    obtain ⟨rfl, hafter⟩ := List.cons.inj heq
    obtain ⟨rest, rfl, -⟩ := exists_of_literalTokens_mark hafter
    exact h ⟨_, _, _, rfl, .auxiliary (.intro hb)⟩
  have howned : Stand (t :: owned) := by
    rw [← hscope]
    exact guides_scopesAuxiliary.stand keepsApart_scopesAuxiliary hwidened
  have hwritten : Rewritten ScopesAuxiliary (before ++ [t]) widened owned :=
    guides_scopesAuxiliary.rewritten hwidened.2
  unfold linearTokens
  rw [hwide, hscope]
  refine guides_retargetsReference.keep howned ?_
  -- A reference that starts here now has its indices from the tokens before all rewriting.
  rintro ⟨_, _, _, heq, ⟨hrow, hcolumn, htarget, hb⟩⟩
  obtain ⟨rfl, hafter⟩ := List.cons.inj heq
  rw [hafter] at hwritten
  obtain ⟨_, hrest⟩ :=
    isForFree_scopesAuxiliary.eq_append (indexTokens_kind .nested hrow hcolumn) hwritten
  obtain ⟨rest, rfl⟩ := exists_of_literalTokens_indices hrow hrest
  obtain ⟨k, hname, htarget⟩ := (targetOf?_eq_some_iff hnames).mp htarget
  exact h ⟨_, _, _, rfl, .reference hname htarget hrow hcolumn hb⟩

theorem guides_rewritesLinear (hnames : names.Nodup) (hz : ['z'] ∉ names) :
    (RewritesLinear lang names).Guides (linearTokens lang names) where
  consumes := by
    rintro _ _ _ _ (h | h | -)
    · exact guides_widensFor.consumes h
    · exact guides_scopesAuxiliary.consumes h
    · exact List.cons_ne_nil _ _
  nil before := by cases lang <;> rfl
  expand := by
    rintro before old after new (h | h | ⟨hname, htarget, hrow, hcolumn, hb⟩)
    · exact linearTokens_literal h
    · exact linearTokens_auxiliary h
    · have hfree : ∀ {name : Text}, name ∈ names → name ≠ ['z'] := by
        rintro name hmem rfl
        exact hz hmem
      exact linearTokens_reference (hfree (List.mem_of_getElem? hname)) hrow hcolumn hb
        ((targetOf?_eq_some_iff hnames).mpr ⟨_, hname, htarget⟩)
  keep hts h := linearTokens_keep hnames hts h

end Linear

end Code

end MotionExport
