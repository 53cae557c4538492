import MotionExport.Code.Language
import MotionExport.Proofs.Expression.TokenRewriting

/-! # The rules of the rewritings

What each rewriting of expressions is for, said as a rule about tokens. All four rewritings act
token by token.
-/

namespace MotionExport

namespace Expression

open Token (IsIdentifier Stand StopsLike concat scan)

variable {before before' after out ts : List Token} {t : Token}

section Rules

def auxiliaryToken : Token := ⟨.identifier, ['z']⟩

/-- The owner and a point go before a free `z` that an opening bracket follows. -/
inductive ScopesAuxiliary : Rule
  | intro {before rest : List Token} : isMember before.getLast? = false →
      ScopesAuxiliary before [auxiliaryToken] (mark '[' :: rest)
        [ownerToken, mark '.', auxiliaryToken]

def bracketDepth (before : List Token) : Nat := before.foldl depthAfter 0

/-- A row of digits outside of all brackets gets a fraction. -/
inductive WidensLiteral : Rule
  | intro {before after : List Token} {digits : Text} : (∀ c ∈ digits, c.isDigit = true) →
      bracketDepth before = 0 →
        WidensLiteral before [⟨.number, digits⟩] after [⟨.number, digits ++ ".0".toList⟩]

/-- A free identifier in the list is looked up in the owner's parameter map. -/
inductive LooksUpName (names : List Text) (quote : Char) : Rule
  | intro {before after : List Token} {name : Text} : name ∈ names →
      isMember before.getLast? = false →
        LooksUpName names quote before [⟨.identifier, name⟩] after (parameterTokens quote name)

def referenceTokens (name : Text) (row column : Token) : List Token :=
  [⟨.identifier, name⟩, mark '[', row, mark ']', mark '[', column, mark ']']

/-- A free reference to an element of a matrix is written for the target of the matrix. -/
inductive RetargetsReference (names targets : List Text) (style : IndexStyle) : Rule
  | intro {before after : List Token} {name target : Text} {row column : Token} :
      row.kind = .number → column.kind = .number → targetOf? names targets name = some target →
        isMember before.getLast? = false →
          RetargetsReference names targets style before (referenceTokens name row column) after
            (scan target ++ style.indexTokens row column)

end Rules

section Apart

theorem standsBefore_mark {c : Char} (hc : c ∈ ['[', ']', ',', ' ']) (u : Text) :
    (mark c).StandsBefore u := by
  have hplain : Token.startsIdentifier c = false ∧ c.isDigit = false ∧ ¬ (c = '"' ∨ c = '\x27') ∧
      c ≠ '.' := by
    simp only [List.mem_cons, List.not_mem_nil, or_false] at hc
    rcases hc with rfl | rfl | rfl | rfl
    all_goals decide
  obtain ⟨hi, hd, hq, hp⟩ := hplain
  exact Token.standsBefore_punctuation hi hd hq fun h => absurd h hp

def fieldTokens (owner field : Text) : List Token :=
  [⟨.identifier, owner⟩, mark '.', ⟨.identifier, field⟩]

theorem stand_fieldTokens {owner field : Text} (ho : IsIdentifier owner) (hf : IsIdentifier field)
    (hts : ¬ (concat ts).head?.any Token.continuesIdentifier = true) (h : Stand ts) :
    Stand (fieldTokens owner field ++ ts) := by
  obtain ⟨c, v, rfl, hc, -⟩ := hf.exists_cons
  refine ⟨Token.standsBefore_identifier ho Bool.false_ne_true,
    Token.standsBefore_punctuation rfl rfl (by decide) fun _ hd => ?_,
    Token.standsBefore_identifier hf hts, h⟩
  exact Bool.false_ne_true ((Token.isDigit_of_startsIdentifier hc).symm.trans hd)

theorem keepsApart_scopesAuxiliary : Rule.KeepsApart ScopesAuxiliary := by
  rintro before old after new out ⟨-⟩ hold hout hstops
  have hbehind : ¬ (concat out).head?.any Token.continuesIdentifier = true :=
    fun h => Bool.false_ne_true (hstops.identifier h)
  refine ⟨stand_fieldTokens (by decide) (by decide) hbehind hout, ?_⟩
  exact StopsLike.of_identifier (by decide) (by decide) (by decide) _ _

theorem keepsApart_widensLiteral : Rule.KeepsApart WidensLiteral := by
  rintro before old after new out ⟨hdigits, -⟩ hold hout hstops
  rename_i digits
  have hstands := hold.1.stopsLike hstops
  have hnumber := Token.numberPart_widened (hstands.numberPart_eq rfl) hdigits
  obtain ⟨c, s, rfl, -⟩ := hstands.first_eq
  have hc : c.isDigit = true := hdigits c List.mem_cons_self
  exact ⟨⟨Token.standsBefore_number hnumber hc, hout⟩, StopsLike.of_digit hc _ _⟩

theorem keepsApart_looksUpName {names : List Text} {quote : Char}
    (hq : quote = '"' ∨ quote = '\x27') : Rule.KeepsApart (LooksUpName names quote) := by
  rintro before old after new out ⟨hname, -⟩ hold hout hstops
  rename_i name
  obtain ⟨hidentifier, -⟩ := hold.1.isIdentifier rfl
  have hkey : quote ∉ name := by
    intro hmem
    have hc := hidentifier.2 quote hmem
    rcases hq with rfl | rfl
    · exact absurd hc (by decide)
    · exact absurd hc (by decide)
  have hentry : Stand (mark '[' :: ⟨.quoted, [quote] ++ name ++ [quote]⟩ :: mark ']' :: out) :=
    ⟨standsBefore_mark (by decide) _, Token.standsBefore_quoted hq hkey _,
      standsBefore_mark (by decide) _, hout⟩
  refine ⟨stand_fieldTokens (by decide) (by decide) ?_ hentry, ?_⟩
  · exact Bool.false_ne_true
  · obtain ⟨c, v, rfl, hc, -⟩ := hidentifier.exists_cons
    exact StopsLike.of_identifier hc (by decide) (by decide) _ _

/-- The text names a member of an owner, and it does not look like an exponent. -/
def NamesField (target : Text) : Prop :=
  ∃ owner field, target = owner ++ '.' :: field ∧ IsIdentifier owner ∧ IsIdentifier field ∧
    ∀ c ∈ owner.head?, ¬ (c = 'e' ∨ c = 'E')

theorem scan_field {owner field : Text} (ho : IsIdentifier owner) (hf : IsIdentifier field) :
    scan (owner ++ '.' :: field) = fieldTokens owner field := by
  have hstand : Stand (fieldTokens owner field ++ []) :=
    stand_fieldTokens ho hf Bool.false_ne_true trivial
  rw [List.append_nil] at hstand
  have hconcat : concat (fieldTokens owner field) = owner ++ '.' :: field := by
    simp [fieldTokens, mark, concat]
  rw [← hconcat, Token.scan_concat hstand]

theorem stand_indexTokens {name : Text} {row column : Token} (style : IndexStyle)
    (h : Stand (referenceTokens name row column ++ after)) (hout : Stand out) :
    Stand (style.indexTokens row column ++ out) := by
  obtain ⟨-, -, hrow, -, -, hcolumn, -, -⟩ := h
  have hstops : ∀ {c d : Char} {u u' : Text}, d = ']' ∨ d = ',' →
      StopsLike (c :: u) (d :: u') := by
    rintro c d u u' (rfl | rfl)
    · exact StopsLike.of_mark (by decide) (by decide) (by decide) _ _
    · exact StopsLike.of_mark (by decide) (by decide) (by decide) _ _
  cases style with
  | nested =>
    exact ⟨standsBefore_mark (by decide) _, hrow.stopsLike (hstops (.inl rfl)),
      standsBefore_mark (by decide) _, standsBefore_mark (by decide) _,
      hcolumn.stopsLike (hstops (.inl rfl)), standsBefore_mark (by decide) _, hout⟩
  | tuple =>
    exact ⟨standsBefore_mark (by decide) _, hrow.stopsLike (hstops (.inr rfl)),
      standsBefore_mark (by decide) _, standsBefore_mark (by decide) _,
      hcolumn.stopsLike (hstops (.inl rfl)), standsBefore_mark (by decide) _, hout⟩

theorem mem_of_targetOf? {names targets : List Text} {name target : Text}
    (h : targetOf? names targets name = some target) : target ∈ targets := by
  obtain ⟨i, -, hi⟩ := Option.bind_eq_some_iff.mp h
  exact List.mem_of_getElem? hi

theorem keepsApart_retargetsReference {names targets : List Text} {style : IndexStyle}
    (hfields : ∀ target ∈ targets, NamesField target) :
    Rule.KeepsApart (RetargetsReference names targets style) := by
  rintro before old after new out ⟨-, -, ht, -⟩ hold hout hstops
  rename_i name target row column
  obtain ⟨owner, field, rfl, ho, hf, hexponent⟩ := hfields target (mem_of_targetOf? ht)
  obtain ⟨hname, -⟩ := hold.1.isIdentifier rfl
  obtain ⟨c, v, rfl, hc, -⟩ := hname.exists_cons
  obtain ⟨d, w, rfl, hd, hw⟩ := ho.exists_cons
  rw [scan_field ho hf, List.append_assoc]
  refine ⟨stand_fieldTokens ho hf ?_ (stand_indexTokens style hold hout), ?_⟩
  · cases style with
    | nested => exact Bool.false_ne_true
    | tuple => exact Bool.false_ne_true
  · exact StopsLike.of_identifier hc hd (hexponent d rfl) _ _

theorem namesField_matrixTargets (lang : Language) :
    ∀ target ∈ lang.matrixTargets, NamesField target := by
  intro target h
  cases lang with
  | rust =>
    have hmem : target ∈ ['a', 'b', 'c', 'd'].map fun c => "linear.".toList ++ [c] := h
    obtain ⟨c, hc, rfl⟩ := List.mem_map.mp hmem
    have hfields : ['a', 'b', 'c', 'd'].all (fun c => IsIdentifier [c]) = true := by decide
    have hc := of_decide_eq_true (List.all_eq_true.mp hfields c hc)
    exact ⟨"linear".toList, [c], rfl, by decide, hc, by rintro d ⟨⟩; decide⟩
  | python =>
    have hmem : target ∈ ['A', 'B', 'C', 'D'].map fun c => "self.".toList ++ [c] := h
    obtain ⟨c, hc, rfl⟩ := List.mem_map.mp hmem
    have hfields : ['A', 'B', 'C', 'D'].all (fun c => IsIdentifier [c]) = true := by decide
    have hc := of_decide_eq_true (List.all_eq_true.mp hfields c hc)
    exact ⟨"self".toList, [c], rfl, by decide, hc, by rintro d ⟨⟩; decide⟩

end Apart

section Following

variable {c : Char}

theorem isMark_iff : t.isMark c = true ↔ t = mark c := by
  obtain ⟨kind, text⟩ := t
  simp [Token.isMark, mark]

theorem bracketDepth_concat (before : List Token) (t : Token) :
    bracketDepth (before ++ [t]) = depthAfter (bracketDepth before) t := by
  rw [bracketDepth, List.foldl_append]
  rfl

theorem isFreeAuxiliary_iff : isFreeAuxiliary before.getLast? t after = true ↔
    Rule.AppliesTo ScopesAuxiliary before (t :: after) := by
  constructor
  · obtain ⟨kind, text⟩ := t
    intro h
    simp only [isFreeAuxiliary, Token.isIdentifier, Bool.and_eq_true, decide_eq_true_eq,
      Bool.not_eq_true'] at h
    obtain ⟨⟨⟨rfl, rfl⟩, hopen⟩, hb⟩ := h
    cases after with
    | nil => cases hopen
    | cons x after =>
      obtain rfl := isMark_iff.mp hopen
      exact ⟨_, _, _, rfl, .intro hb⟩
  · rintro ⟨old, rest, new, heq, ⟨hb⟩⟩
    cases heq
    simp [isFreeAuxiliary, auxiliaryToken, Token.isIdentifier, Token.isMark, mark, hb]

theorem guides_scopesAuxiliary :
    Rule.Guides ScopesAuxiliary fun before => scopeTokens before.getLast? where
  consumes := by
    rintro _ _ _ _ ⟨-⟩
    exact List.cons_ne_nil _ _
  nil _ := rfl
  expand := by
    rintro before _ _ _ ⟨hb⟩
    rename_i rest
    have hfree : isFreeAuxiliary before.getLast? auxiliaryToken (mark '[' :: rest) = true :=
      isFreeAuxiliary_iff.mpr ⟨_, _, _, rfl, .intro hb⟩
    rw [List.singleton_append, scopeTokens, if_pos hfree, List.getLast?_concat]
    rfl
  keep := by
    intro before t after _ h
    rw [scopeTokens, if_neg (mt isFreeAuxiliary_iff.mp h), List.getLast?_concat]

/-- Of what stands before, only whether it makes the first token a member matters. -/
theorem scopeTokens_congr {b b' : Option Token} (h : isMember b = isMember b') :
    scopeTokens b ts = scopeTokens b' ts := by
  cases ts with
  | nil => rfl
  | cons t ts => rw [scopeTokens, scopeTokens, isFreeAuxiliary, isFreeAuxiliary, h]

theorem scopeTokens_of_kind {b : Option Token} (ht : t.kind ≠ .identifier) :
    scopeTokens b (t :: ts) = t :: scopeTokens (some t) ts := by
  simp [scopeTokens, isFreeAuxiliary, Token.isIdentifier, ht]

theorem isWholeLiteral_iff {u : Text} (h : t.StandsBefore u) :
    isWholeLiteral t = true ↔ t.kind = .number ∧ ∀ c ∈ t.text, c.isDigit = true := by
  simp only [isWholeLiteral, Bool.and_eq_true, decide_eq_true_eq, Bool.not_eq_true',
    List.any_eq_false, Bool.or_eq_true, or_assoc]
  refine and_congr_right fun hkind => ⟨fun hwhole => ?_, fun hdigits c hc => ?_⟩
  · have hnumber := Token.digits_of_numberPart (h.numberPart_eq hkind) hwhole
    exact (Token.span_eq_iff.mp hnumber.1).1
  · exact Token.not_inexact_of_isDigit (hdigits c hc)

theorem widens_iff {u : Text} (h : t.StandsBefore u) :
    (isWholeLiteral t && bracketDepth before = 0) = true ↔
      Rule.AppliesTo WidensLiteral before (t :: after) := by
  rw [Bool.and_eq_true, decide_eq_true_eq, isWholeLiteral_iff h]
  constructor
  · obtain ⟨kind, text⟩ := t
    rintro ⟨⟨rfl, hdigits⟩, hdepth⟩
    exact ⟨_, _, _, rfl, .intro hdigits hdepth⟩
  · rintro ⟨old, rest, new, heq, ⟨hdigits, hdepth⟩⟩
    cases heq
    exact ⟨⟨rfl, hdigits⟩, hdepth⟩

theorem guides_widensLiteral :
    Rule.Guides WidensLiteral fun before => widenTokens (bracketDepth before) where
  consumes := by
    rintro _ _ _ _ ⟨-⟩
    exact List.cons_ne_nil _ _
  nil _ := rfl
  expand := by
    rintro before _ after _ ⟨hdigits, hdepth⟩
    rename_i digits
    have hwhole : isWholeLiteral ⟨.number, digits⟩ = true := by
      simpa [isWholeLiteral, or_assoc] using
        fun c hc => Token.not_inexact_of_isDigit (hdigits c hc)
    rw [List.singleton_append, widenTokens, if_pos (by simp [hwhole, hdepth]), bracketDepth_concat]
    rfl
  keep := by
    intro before t after hts h
    rw [widenTokens, if_neg (mt (widens_iff hts.1).mp h), bracketDepth_concat]

section LookingUp

variable {names : List Text} {quote : Char}

theorem looksUp_iff :
    (t.isIdentifier && names.contains t.text && !isMember before.getLast?) = true ↔
      (LooksUpName names quote).AppliesTo before (t :: after) := by
  simp only [Token.isIdentifier, Bool.and_eq_true, decide_eq_true_eq, List.contains_iff_mem,
    Bool.not_eq_true']
  constructor
  · obtain ⟨kind, text⟩ := t
    rintro ⟨⟨rfl, hname⟩, hb⟩
    exact ⟨_, _, _, rfl, .intro hname hb⟩
  · rintro ⟨old, rest, new, heq, ⟨hname, hb⟩⟩
    cases heq
    exact ⟨⟨rfl, hname⟩, hb⟩

theorem guides_looksUpName :
    (LooksUpName names quote).Guides fun before => lookUpTokens names quote before.getLast? where
  consumes := by
    rintro _ _ _ _ ⟨-⟩
    exact List.cons_ne_nil _ _
  nil _ := rfl
  expand := by
    intro before old after new h
    obtain ⟨-⟩ := id h
    have hlooks := looksUp_iff.mpr ⟨_, _, _, rfl, h⟩
    rw [List.singleton_append, lookUpTokens, if_pos hlooks, List.getLast?_concat]
  keep := by
    intro before t after _ h
    rw [lookUpTokens, if_neg (mt looksUp_iff.mp h), List.getLast?_concat]

end LookingUp

section Retargeting

variable {names targets : List Text} {style : IndexStyle}

theorem elementIndices?_eq_some_iff {row column : Token} :
    elementIndices? ts = some (row, column) ↔ row.kind = .number ∧ column.kind = .number ∧
      ∃ rest, ts = [mark '[', row, mark ']', mark '[', column, mark ']'] ++ rest := by
  constructor
  · intro h
    unfold elementIndices? at h
    split at h
    · rename_i open₁ row' close₁ open₂ column' close₂ rest
      split at h
      · rename_i hindices
        cases h
        simp only [Bool.and_eq_true, decide_eq_true_eq, isMark_iff] at hindices
        obtain ⟨⟨⟨⟨⟨rfl, hrow⟩, rfl⟩, rfl⟩, hcolumn⟩, rfl⟩ := hindices
        exact ⟨hrow, hcolumn, rest, rfl⟩
      · cases h
    · cases h
  · rintro ⟨hrow, hcolumn, rest, rfl⟩
    simp [elementIndices?, isMark_iff, hrow, hcolumn]

theorem guides_retargetsReference : (RetargetsReference names targets style).Guides
    fun before => retargetTokens names targets style 0 before.getLast? where
  consumes := by
    rintro _ _ _ _ ⟨-⟩
    exact List.cons_ne_nil _ _
  nil _ := rfl
  expand := by
    rintro before _ after _ ⟨hrow, hcolumn, htarget, hb⟩
    rename_i name target row column
    let indices := [mark '[', row, mark ']', mark '[', column, mark ']']
    have hindices : elementIndices? (indices ++ after) = some (row, column) :=
      elementIndices?_eq_some_iff.mpr ⟨hrow, hcolumn, after, rfl⟩
    have hcovered : retargetTokens names targets style 6 (some ⟨.identifier, name⟩)
        (indices ++ after) = retargetTokens names targets style 0 (some (mark ']')) after := rfl
    have hlast : (before ++ referenceTokens name row column).getLast? = some (mark ']') := by
      simp [referenceTokens]
    show retargetTokens names targets style 0 _ (⟨.identifier, name⟩ :: (indices ++ after)) = _
    rw [retargetTokens, hlast]
    simp only [Token.isIdentifier, hb, htarget, hindices, hcovered, decide_true, Bool.not_false,
      Bool.and_self, if_true]
  keep := by
    intro before t after _ h
    rw [retargetTokens, List.getLast?_concat]
    split
    · rename_i target row column htarget hindices
      refine absurd ?_ h
      obtain ⟨kind, text⟩ := t
      obtain ⟨hfree, htarget⟩ := Option.ite_none_right_eq_some.mp htarget
      obtain ⟨hrow, hcolumn, rest, rfl⟩ := elementIndices?_eq_some_iff.mp hindices
      obtain ⟨rfl, hb⟩ : kind = .identifier ∧ isMember before.getLast? = false := by
        simpa [Token.isIdentifier] using hfree
      exact ⟨_, _, _, rfl, .intro hrow hcolumn htarget hb⟩
    · rfl

end Retargeting

end Following

section Settling

theorem isMember_concat (before : List Token) (t : Token) :
    isMember (before ++ [t]).getLast? = t.isMark '.' := by
  rw [List.getLast?_concat]
  rfl

theorem isForFree_scopesAuxiliary : Rule.IsForFree ScopesAuxiliary where
  old := by
    rintro _ _ _ _ ⟨-⟩
    exact ⟨_, _, rfl⟩
  free := by
    rintro _ _ _ _ ⟨hb⟩
    exact hb
  new := by
    rintro _ _ _ _ ⟨-⟩
    exact ⟨_, _, rfl⟩

theorem settled_scopesAuxiliary (h : Rewritten ScopesAuxiliary before ts out)
    (hb : isMember before'.getLast? = isMember before.getLast?) :
    Rule.Settled ScopesAuxiliary before' out := by
  have hfree := isForFree_scopesAuxiliary
  induction h generalizing before' with
  | nil => trivial
  | expand hr _ ih =>
    cases hr
    have howner : ownerToken ≠ auxiliaryToken := by decide
    refine ⟨?_, hfree.not_appliesTo (.inl nofun), hfree.not_appliesTo (.inr ?_), ih ?_⟩
    · rintro ⟨_, _, _, heq, ⟨-⟩⟩
      exact howner (List.cons.inj heq).1
    · rw [isMember_concat]
      rfl
    · rw [isMember_concat, isMember_concat]
  | @keep before t after out hn h ih =>
    refine ⟨?_, ih ?_⟩
    · rintro ⟨_, _, _, heq, ⟨hmember⟩⟩
      cases heq
      -- The bracket behind the kept token is not new, so it was there before.
      obtain ⟨after, rfl⟩ := hfree.eq_append (List.forall_mem_singleton.mpr (by decide)) h
      exact hn ⟨_, _, _, rfl, .intro (hb.symm.trans hmember)⟩
    · rw [isMember_concat, isMember_concat]

theorem settled_widensLiteral (h : Rewritten WidensLiteral before ts out)
    (hb : bracketDepth before' = bracketDepth before) : Rule.Settled WidensLiteral before' out := by
  induction h generalizing before' with
  | nil => trivial
  | expand hr _ ih =>
    obtain ⟨hdigits, hdepth⟩ := hr
    refine ⟨?_, ih ?_⟩
    · rintro ⟨_, _, _, heq, ⟨hwidened, -⟩⟩
      cases heq
      exact absurd (hwidened '.' (by simp)) (by decide)
    · rw [bracketDepth_concat, bracketDepth_concat, hb]
      rfl
  | keep hn _ ih =>
    refine ⟨?_, ih ?_⟩
    · rintro ⟨_, _, _, heq, ⟨hdigits, hdepth⟩⟩
      cases heq
      exact hn ⟨_, _, _, rfl, .intro hdigits (hb.symm.trans hdepth)⟩
    · rw [bracketDepth_concat, bracketDepth_concat, hb]

section LookingUp

variable {names : List Text} {quote : Char}

theorem isForFree_looksUpName : (LooksUpName names quote).IsForFree where
  old := by
    rintro _ _ _ _ ⟨-⟩
    exact ⟨_, _, rfl⟩
  free := by
    rintro _ _ _ _ ⟨-, hb⟩
    exact hb
  new := by
    rintro _ _ _ _ ⟨-⟩
    exact ⟨_, _, rfl⟩

theorem settled_looksUpName (howner : "self".toList ∉ names)
    (h : Rewritten (LooksUpName names quote) before ts out)
    (hb : isMember before'.getLast? = isMember before.getLast?) :
    (LooksUpName names quote).Settled before' out := by
  have hfree : (LooksUpName names quote).IsForFree := isForFree_looksUpName
  induction h generalizing before' with
  | nil => trivial
  | expand hr _ ih =>
    obtain ⟨-⟩ := hr
    rename_i name _ _
    have hentry : ∀ t ∈ [mark '[', ⟨.quoted, [quote] ++ name ++ [quote]⟩, mark ']'],
        t.kind ≠ .identifier := by
      simp [mark]
    refine ⟨?_, hfree.not_appliesTo (.inl nofun), hfree.not_appliesTo (.inr ?_),
      hfree.settled_append hentry (ih ?_)⟩
    · rintro ⟨_, _, _, heq, ⟨hname, -⟩⟩
      cases heq
      exact howner hname
    · rw [isMember_concat]
      rfl
    · simp [isMember, Token.isMark, mark]
  | keep hn _ ih =>
    refine ⟨?_, ih ?_⟩
    · rintro ⟨_, _, _, heq, ⟨hname, hmember⟩⟩
      cases heq
      exact hn ⟨_, _, _, rfl, .intro hname (hb.symm.trans hmember)⟩
    · rw [isMember_concat, isMember_concat]

end LookingUp

section Retargeting

variable {names targets : List Text} {style : IndexStyle}

theorem isForFree_retargetsReference (hfields : ∀ target ∈ targets, NamesField target) :
    (RetargetsReference names targets style).IsForFree where
  old := by
    rintro _ _ _ _ ⟨-⟩
    exact ⟨_, _, rfl⟩
  free := by
    rintro _ _ _ _ ⟨-, -, -, hb⟩
    exact hb
  new := by
    rintro _ _ _ _ ⟨-, -, ht, -⟩
    obtain ⟨owner, field, rfl, ho, hf, -⟩ := hfields _ (mem_of_targetOf? ht)
    rw [scan_field ho hf]
    exact ⟨_, _, rfl⟩

theorem indexTokens_kind (style : IndexStyle) {row column : Token} (hrow : row.kind = .number)
    (hcolumn : column.kind = .number) :
    ∀ t ∈ style.indexTokens row column, t.kind ≠ .identifier := by
  cases style with
  | nested => simp [IndexStyle.indexTokens, mark, hrow, hcolumn]
  | tuple => simp [IndexStyle.indexTokens, mark, hrow, hcolumn]

theorem indexTokens_getLast? (style : IndexStyle) (row column : Token) (before : List Token) :
    (before ++ style.indexTokens row column).getLast? = some (mark ']') := by
  cases style with
  | nested => simp [IndexStyle.indexTokens]
  | tuple => simp [IndexStyle.indexTokens]

theorem settled_retargetsReference (hfields : ∀ target ∈ targets, NamesField target)
    (h : Rewritten (RetargetsReference names targets style) before ts out)
    (hb : isMember before'.getLast? = isMember before.getLast?) :
    (RetargetsReference names targets style).Settled before' out := by
  have hfree : (RetargetsReference names targets style).IsForFree :=
    isForFree_retargetsReference hfields
  induction h generalizing before' with
  | nil => trivial
  | expand hr _ ih =>
    obtain ⟨hrow, hcolumn, ht, -⟩ := hr
    obtain ⟨owner, field, rfl, ho, hf, -⟩ := hfields _ (mem_of_targetOf? ht)
    rw [scan_field ho hf, List.append_assoc]
    refine ⟨?_, hfree.not_appliesTo (.inl nofun), hfree.not_appliesTo (.inr ?_), ?_⟩
    · rintro ⟨_, _, _, heq, ⟨-⟩⟩
      cases heq
    · rw [isMember_concat]
      rfl
    · show Rule.Settled _ _ (style.indexTokens _ _ ++ _)
      refine hfree.settled_append (indexTokens_kind style hrow hcolumn) (ih ?_)
      rw [indexTokens_getLast?]
      simp [referenceTokens]
  | keep hn h ih =>
    refine ⟨?_, ih ?_⟩
    · rintro ⟨_, _, _, heq, ⟨hrow, hcolumn, ht, hmember⟩⟩
      cases heq
      -- Neither are the indices behind a kept name new.
      obtain ⟨rest, rfl⟩ := hfree.eq_append (indexTokens_kind .nested hrow hcolumn) h
      exact hn ⟨_, _, _, rfl, .intro hrow hcolumn ht (hb.symm.trans hmember)⟩
    · rw [isMember_concat, isMember_concat]

end Retargeting

end Settling

section Acting

variable {names : List Text} {quote : Char}

theorem scan_widenLiterals (t : Text) : scan (widenLiterals t) = widenTokens 0 (scan t) :=
  scan_onTokens guides_widensLiteral keepsApart_widensLiteral t

theorem scan_scopeAuxiliaries (t : Text) : scan (scopeAuxiliaries t) = scopeTokens none (scan t) :=
  scan_onTokens guides_scopesAuxiliary keepsApart_scopesAuxiliary t

theorem actsOnTokens_scopeAuxiliaries : ActsOnTokens ScopesAuxiliary scopeAuxiliaries :=
  actsOnTokens guides_scopesAuxiliary keepsApart_scopesAuxiliary fun _ _ h =>
    settled_scopesAuxiliary h rfl

theorem actsOnTokens_widenLiterals : ActsOnTokens WidensLiteral widenLiterals :=
  actsOnTokens guides_widensLiteral keepsApart_widensLiteral fun _ _ h =>
    settled_widensLiteral h rfl

theorem actsOnTokens_retargetMatrices (names : List Text) (lang : Language) (style : IndexStyle) :
    ActsOnTokens (RetargetsReference names lang.matrixTargets style)
      (retargetMatrices names lang.matrixTargets style) :=
  have hfields := namesField_matrixTargets lang
  actsOnTokens guides_retargetsReference (keepsApart_retargetsReference hfields) fun _ _ h =>
    settled_retargetsReference hfields h rfl

theorem actsOnTokens_lookUpParameters (howner : "self".toList ∉ names)
    (hquote : quote = '"' ∨ quote = '\x27') :
    ActsOnTokens (LooksUpName names quote) (lookUpParameters names quote) :=
  actsOnTokens guides_looksUpName (keepsApart_looksUpName hquote) fun _ _ h =>
    settled_looksUpName howner h rfl

end Acting

end Expression

end MotionExport
