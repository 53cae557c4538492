import Mathlib.Data.List.Nodup
import MotionExport.Proofs.Code.BodyLines
import MotionExport.Proofs.Expression.NameReading
import MotionExport.Proofs.Text.Pieces

/-! # The parameter map of a module

Constants read parameters, and what other constants define, from a map that the module owns. No name
that is kept there is read as a local name, every key that is looked up is in the map, and each
name is bound once where the map is read back.
-/

namespace MotionExport

open Token (scan)

namespace Expression

variable {names : List Text} {quote : Char} {before ts rest : List Token} {t : Token}
  {b b' : Option Token}

theorem head?_lookUpTokens {p : Token → Bool}
    (hp : ∀ t : Token, t.isIdentifier = true → p t = false) :
    (lookUpTokens names quote b ts).head?.any p = ts.head?.any p := by
  cases ts with
  | nil => rfl
  | cons t rest =>
    rw [lookUpTokens]
    split
    · rename_i hlook
      have ht : t.isIdentifier = true := by
        rw [Bool.and_eq_true, Bool.and_eq_true] at hlook
        exact hlook.1.1
      exact (hp ownerToken rfl).trans (hp t ht).symm
    · rfl

theorem opensUse_lookUpTokens : opensUse (lookUpTokens names quote b ts) = opensUse ts :=
  head?_lookUpTokens fun t ht => by rw [isMark_of_isIdentifier ht, isMark_of_isIdentifier ht]; rfl

theorem isFreeAuxiliary_lookUpTokens (hb : isMember b = isMember b') :
    isFreeAuxiliary b t (lookUpTokens names quote (some t) ts) = isFreeAuxiliary b' t ts := by
  rw [isFreeAuxiliary, isFreeAuxiliary, hb,
    head?_lookUpTokens fun t ht => isMark_of_isIdentifier ht]

theorem namesReadBy_parameterTokens (name : Text) :
    namesReadBy b (parameterTokens quote name ++ ts) = namesReadBy (some (mark ']')) ts := by
  have hfield : nameRead? (some (mark '.')) ⟨.identifier, "parameters".toList⟩
      (mark '[' :: ⟨.quoted, [quote] ++ name ++ [quote]⟩ :: mark ']' :: ts) = none := by
    simp [nameRead?, isMember, Token.isMark, mark]
  have howner : nameRead? b ownerToken (mark '.' :: ⟨.identifier, "parameters".toList⟩ ::
      mark '[' :: ⟨.quoted, [quote] ++ name ++ [quote]⟩ :: mark ']' :: ts) = none := by
    simp [nameRead?, opensUse, Token.isMark, mark]
  show namesReadBy b (ownerToken :: mark '.' :: ⟨.identifier, "parameters".toList⟩ ::
    mark '[' :: ⟨.quoted, [quote] ++ name ++ [quote]⟩ :: mark ']' :: ts) = _
  rw [namesReadBy, howner, namesReadBy_of_kind (by simp [mark]), namesReadBy, hfield,
    namesReadBy_of_kind (by simp [mark]), namesReadBy_of_kind (by simp),
    namesReadBy_of_kind (by simp [mark])]
  rfl

/-- Of the names that were read before, those in the list are read no longer. -/
theorem namesReadBy_lookUpTokens (h : Rule.Settled ScopesAuxiliary before ts)
    (hb : isMember b = isMember before.getLast?) :
    namesReadBy b (lookUpTokens names quote before.getLast? ts) =
      (namesReadBy before.getLast? ts).filter fun name => name ∉ names := by
  -- The token in front of the rest is new where a name was looked up, hence the two of them.
  induction ts generalizing before b with
  | nil => rfl
  | cons t rest ih =>
    have hfree : isFreeAuxiliary before.getLast? t rest = false :=
      Bool.eq_false_iff.mpr (mt isFreeAuxiliary_iff.mp h.1)
    have hlast : (before ++ [t]).getLast? = some t := List.getLast?_concat
    have ih' : ∀ b, isMember b = isMember (some t) →
        namesReadBy b (lookUpTokens names quote (some t) rest) =
          (namesReadBy (some t) rest).filter fun name => name ∉ names := by
      intro b hb
      rw [← hlast] at hb ⊢
      exact ih h.2 hb
    rw [namesReadBy, List.filter_append, nameRead?_of_not_free hfree, lookUpTokens]
    split
    · rename_i hlook
      simp only [Bool.and_eq_true, List.contains_iff_mem] at hlook
      have hclosing : isMember (some (mark ']')) = isMember (some t) :=
        (isMark_of_isIdentifier hlook.1.1).symm
      rw [namesReadBy_parameterTokens, ih' _ hclosing]
      split
      · simp [hlook.1.2]
      · rfl
    · rename_i hlook
      have hkept : isFreeAuxiliary b t (lookUpTokens names quote (some t) rest) = false :=
        (isFreeAuxiliary_lookUpTokens hb).trans hfree
      rw [namesReadBy, nameRead?_of_not_free hkept, opensUse_lookUpTokens, ih' _ rfl, hb]
      split
      · rename_i hread
        simp only [Bool.and_eq_true] at hread hlook
        have hname : t.text ∉ names := by
          intro hmem
          exact hlook ⟨⟨hread.1.1, List.contains_iff_mem.mpr hmem⟩, hread.1.2⟩
        simp [hname]
      · rfl

end Expression

namespace Document

variable {names : List Text} {es : List Equation} {name : Text}

theorem mem_addDefined_iff : name ∈ addDefined names es ↔ name ∈ names ∨ ∃ e ∈ es,
    e.isAuxiliary = false ∧ Expression.elementTarget? e.lhs = none ∧ e.lhs = name := by
  induction es generalizing names with
  | nil => simp [addDefined]
  | cons e es ih =>
    simp only [addDefined, List.mem_cons, or_and_right, exists_or, exists_eq_left]
    split
    · rename_i hskip
      have hknown : e.isAuxiliary = false ∧ Expression.elementTarget? e.lhs = none ∧
          e.lhs = name → name ∈ names := by
        rintro ⟨ha, ht, rfl⟩
        simpa [ha, ht] using hskip
      rw [ih, ← or_assoc, or_iff_left_of_imp hknown]
    · rename_i hnew
      simp only [Bool.or_eq_true, not_or, Bool.not_eq_true, Option.isSome_eq_false_iff,
        Option.isNone_iff_eq_none] at hnew
      rw [ih, List.mem_append, List.mem_singleton, or_assoc, eq_comm]
      simp only [hnew, true_and]

theorem nodup_addDefined (h : names.Nodup) : (addDefined names es).Nodup := by
  induction es generalizing names with
  | nil => exact h
  | cons e es ih =>
    rw [addDefined]
    split
    · exact ih h
    · rename_i hnew
      simp only [Bool.or_eq_true, List.contains_iff_mem, not_or] at hnew
      refine ih (List.nodup_append.mpr ⟨h, List.pairwise_singleton _ _, ?_⟩)
      rintro name hname _ hother rfl
      exact hnew.2 (List.mem_singleton.mp hother ▸ hname)

end Document

namespace Code

open Expression

def literalEntry (lang : Language) (name : Text) (x : Binary64) : Text :=
  match lang with
  | .rust => "(\"".toList ++ name ++ "\".to_string(), ".toList ++ NumberStyle.plain.write x
      ++ "),".toList
  | .python => "'".toList ++ name ++ "': ".toList ++ NumberStyle.plain.write x

def insertionLine (lang : Language) (key x : Text) : Text :=
  match lang with
  | .rust => List.replicate 8 ' ' ++ "self.parameters.insert(\"".toList ++ key
      ++ "\".to_string(), ".toList ++ x ++ ");".toList
  | .python => List.replicate 8 ' ' ++ "self.parameters['".toList ++ key ++ "'] = ".toList ++ x

/-- The lines of a constant with the right side `rhs`. A plain name is kept in the parameter map. -/
def constantLines (lang : Language) (e : Equation) (rhs : Text) : List Text :=
  if e.isAuxiliary then [assignmentLine lang (scopeAuxiliaries e.lhs) rhs]
  else if (elementTarget? e.lhs).isSome then [assignmentLine lang e.lhs rhs]
  else
    match lang with
    | .rust => [bindingLine lang e.lhs rhs, insertionLine lang e.lhs e.lhs]
    | .python => [insertionLine lang e.lhs rhs]

/-- What the constants look up in the parameter map of a module is there, and they read nothing
else that is kept there. -/
structure ParameterMapClosed (lang : Language) (matrixNames : List Text) (d : Document) : Prop where
  /-- The keys are the parameters and the plain names that the constants define. -/
  mem_keys : ∀ name, name ∈ d.mappedNames ↔ name ∈ d.parameterNames ∨ ∃ e ∈ d.constants,
    e.isAuxiliary = false ∧ elementTarget? e.lhs = none ∧ e.lhs = name
  nodup_keys : d.mappedNames.Nodup
  /-- The constants are written one after the other, below the arrays that they fill. -/
  written : value lang matrixNames d .constants = ['\n'].intercalate
    (((context lang matrixNames d).localArrays d.constants).map
        (fun (name, length) => declarationLine lang name length) ++
      d.constants.flatMap fun e =>
        constantLines lang e ((context lang matrixNames d).expression .constants e))
  /-- In a right side, every free identifier that is a key is looked up, and no other token
  changes. -/
  looked_up : ∀ e ∈ d.constants, Rewritten (LooksUpName d.mappedNames lang.quote) []
    (scan ((context lang matrixNames d).expression .plain e))
    (scan ((context lang matrixNames d).expression .constants e))
  /-- No key is read as a local name. -/
  not_read : ∀ e ∈ d.constants, ∀ name ∈ namesRead
    ((context lang matrixNames d).expression .constants e), name ∉ d.mappedNames
  /-- The map starts with a key, or a line of the constants inserts it. -/
  supplied : ∀ key ∈ d.mappedNames,
    (∃ p ∈ d.parameters, p.name = key ∧
      literalEntry lang key p.value <:+: value lang matrixNames d .parameters) ∨
    ∃ x, IsLine (insertionLine lang key x) (value lang matrixNames d .constants)
  /-- Where the map is read back, there is a line for each key, and nothing else. -/
  bound : value lang matrixNames d .parameterBindings =
    ['\n'].intercalate (d.mappedNames.map fun key => bindingLine lang key (mapEntry lang key))
  /-- No other line binds the same name, provided that the names are told apart from what is written
  around them. -/
  bound_once : (∀ key ∈ d.mappedNames, ' ' ∉ key ∧ '\n' ∉ key) → ∀ key ∈ d.mappedNames,
    ((value lang matrixNames d .parameterBindings).splitOn '\n').filter
        (fun line => bindingStart lang key <+: line) =
      [bindingLine lang key (mapEntry lang key)]

variable {lang : Language} {names : List Text} {c : Context} {d : Document} {e : Equation}

theorem quote_eq (lang : Language) : lang.quote = '"' ∨ lang.quote = '\x27' := by
  cases lang with
  | rust => exact .inl rfl
  | python => exact .inr rfl

theorem scan_expression_constants (c : Context) (e : Equation) :
    scan (c.expression .constants e) =
      lookUpTokens c.lookup c.language.quote none (scan (c.expression .plain e)) :=
  scan_onTokens guides_looksUpName (keepsApart_looksUpName (quote_eq c.language)) _

theorem settled_expression_plain (c : Context) (e : Equation) :
    Rule.Settled ScopesAuxiliary [] (scan (c.expression .plain e)) :=
  settled_scopesAuxiliary (actsOnTokens_scopeAuxiliaries.rewritten _) rfl

theorem namesRead_expression_constants (c : Context) (e : Equation) :
    namesRead (c.expression .constants e) =
      (namesRead (c.expression .plain e)).filter fun name => name ∉ c.lookup := by
  rw [namesRead, scan_expression_constants]
  exact namesReadBy_lookUpTokens (settled_expression_plain c e) rfl

theorem infix_intercalate {sep u : Text} {lines : List Text} (h : u ∈ lines) :
    u <:+: sep.intercalate lines := by
  have hmem : u ∈ lines.intersperse sep := by
    fun_induction lines.intersperse sep with
    | case1 => cases h
    | case2 line => exact h
    | case3 line next lines ih =>
      rcases List.mem_cons.mp h with rfl | h
      · exact List.mem_cons_self
      · exact List.mem_cons_of_mem _ (List.mem_cons_of_mem _ (ih h))
  exact List.infix_of_mem_flatten hmem

theorem parameterLiteral_rust (parameters : List Quantity) : parameterLiteral .rust parameters =
    ['\n'].intercalate ((sortedByName (parameters.map fun p => (p.name, p.value))).map
      fun (name, x) => List.replicate 8 ' ' ++ literalEntry .rust name x) := by
  have hopening : "(\"".toList = ['('] ++ ['"'] := by decide
  have hclosing : "\".to_string(), ".toList = ['"'] ++ ".to_string(), ".toList := by decide
  unfold parameterLiteral literalEntry Language.quoted Language.number
  simp only [hopening, hclosing, Language.quote, List.append_assoc]

theorem parameterLiteral_python (parameters : List Quantity) : parameterLiteral .python parameters =
    ['\x7b'] ++ ", ".toList.intercalate
      ((sortedByName (parameters.map fun p => (p.name, p.value))).map
        fun (name, x) => literalEntry .python name x) ++ ['\x7d'] := by
  have hclosing : "': ".toList = ['\x27'] ++ ": ".toList := by decide
  unfold parameterLiteral Language.dictionary Language.commaSeparated literalEntry Language.quoted
    Language.number
  simp only [hclosing, Language.quote, List.append_assoc]
  rfl

theorem literalEntry_infix (lang : Language) {parameters : List Quantity} {p : Quantity}
    (h : p ∈ parameters) :
    literalEntry lang p.name p.value <:+: parameterLiteral lang parameters := by
  have hmem : (p.name, p.value) ∈ sortedByName (parameters.map fun p => (p.name, p.value)) :=
    List.mem_mergeSort.mpr (List.mem_map.mpr ⟨p, h, rfl⟩)
  cases lang with
  | rust =>
    rw [parameterLiteral_rust]
    exact (List.suffix_append _ _).isInfix.trans (infix_intercalate (List.mem_map_of_mem hmem))
  | python =>
    rw [parameterLiteral_python]
    refine List.IsInfix.trans ?_ ⟨['\x7b'], ['\x7d'], rfl⟩
    exact infix_intercalate (List.mem_map.mpr ⟨_, hmem, rfl⟩)

theorem indent_insertion_rust (key x : Text) :
    List.replicate 8 ' ' ++ ("self.parameters.insert(".toList ++ Language.rust.quoted key
      ++ ".to_string(), ".toList ++ x ++ ");".toList) = insertionLine .rust key x := by
  have hopening : "self.parameters.insert(\"".toList =
      "self.parameters.insert(".toList ++ ['"'] := by decide
  have hclosing : "\".to_string(), ".toList = ['"'] ++ ".to_string(), ".toList := by decide
  unfold insertionLine Language.quoted
  rw [hopening, hclosing]
  simp only [Language.quote, List.append_assoc]

theorem indent_insertion_python (key x : Text) :
    List.replicate 8 ' ' ++ Language.python.assignment (Language.python.parameterEntry key) x =
      insertionLine .python key x := by
  have hclosing : "'] = ".toList = "']".toList ++ " = ".toList := by decide
  rw [indent_assignment, parameterEntry_eq]
  unfold assignmentLine mapEntry insertionLine
  rw [hclosing]
  simp only [List.append_assoc]

theorem indent_statement_constants (c : Context) (e : Equation) :
    (c.statement .constants e).map (List.replicate 8 ' ' ++ ·) =
      constantLines c.language e (c.expression .constants e) := by
  obtain ⟨lang, matrixNames, lookup⟩ := c
  have hkind : ¬ (BlockKind.constants = .linear ∧
      Context.isMatrixEntry ⟨lang, matrixNames, lookup⟩ e = true) := nofun
  unfold Context.statement constantLines
  simp only [hkind, if_false]
  split
  · rw [List.map_singleton, indent_assignment]
  · split
    · rw [List.map_singleton, indent_assignment]
    · cases lang with
      | rust => rw [List.map_cons, List.map_singleton, indent_binding, indent_insertion_rust]
      | python => rw [List.map_singleton, indent_insertion_python]

theorem value_constants (lang : Language) (matrixNames : List Text) (d : Document) :
    value lang matrixNames d .constants = ['\n'].intercalate
      (((context lang matrixNames d).localArrays d.constants).map
          (fun (name, length) => declarationLine lang name length) ++
        d.constants.flatMap fun e =>
          constantLines lang e ((context lang matrixNames d).expression .constants e)) := by
  have hblock := block_eq (context lang matrixNames d) .constants d.constants
  simp only [indent_statement_constants] at hblock
  exact hblock

theorem exists_insertionLine (ha : e.isAuxiliary = false) (ht : elementTarget? e.lhs = none)
    (rhs : Text) : ∃ x, insertionLine lang e.lhs x ∈ constantLines lang e rhs := by
  unfold constantLines
  rw [ha, ht]
  cases lang with
  | rust => exact ⟨e.lhs, List.mem_cons_of_mem _ List.mem_cons_self⟩
  | python => exact ⟨rhs, List.mem_cons_self⟩

theorem supplied_of_mem (lang : Language) (matrixNames : List Text) (d : Document) {key : Text}
    (h : key ∈ d.mappedNames) :
    (∃ p ∈ d.parameters, p.name = key ∧
      literalEntry lang key p.value <:+: value lang matrixNames d .parameters) ∨
    ∃ x, IsLine (insertionLine lang key x) (value lang matrixNames d .constants) := by
  rcases Document.mem_addDefined_iff.mp h with hparameter | ⟨e, he, ha, ht, rfl⟩
  · obtain ⟨p, hp, rfl⟩ := List.mem_map.mp hparameter
    exact .inl ⟨p, hp, rfl, literalEntry_infix lang hp⟩
  · obtain ⟨x, hx⟩ := exists_insertionLine ha ht
      ((context lang matrixNames d).expression .constants e)
    rw [value_constants]
    exact .inr ⟨x, isLine_intercalate (List.mem_append_right _ (List.mem_flatMap.mpr ⟨e, he, hx⟩))⟩

theorem value_parameterBindings (lang : Language) (matrixNames : List Text) (d : Document) :
    value lang matrixNames d .parameterBindings = ['\n'].intercalate
      (d.mappedNames.map fun key => bindingLine lang key (mapEntry lang key)) := by
  show indented (d.mappedNames.map fun key => lang.binding key (lang.parameterEntry key)) = _
  simp only [indented, List.map_map, Function.comp_def, indent_binding, parameterEntry_eq]

/-- The name that a line binds can be told from its start. -/
theorem bindingStart_prefix_iff {name key value : Text} (hname : ' ' ∉ name) (hkey : ' ' ∉ key) :
    bindingStart lang name <+: bindingLine lang key value ↔ key = name := by
  obtain ⟨lead, ending, -, -, hstart, hline⟩ := exists_bindingLine_eq lang
  rw [hline, List.append_assoc]
  constructor
  · rintro ⟨more, h⟩
    rw [hstart, hstart] at h
    have hlead : lead ++ (name ++ " = ".toList ++ more) =
        lead ++ (key ++ " = ".toList ++ (value ++ ending)) := by
      simpa only [List.append_assoc] using h
    have hrest := List.append_cancel_left hlead
    have hcut : some (key, value ++ ending) = some (name, more) :=
      calc some (key, value ++ ending)
          = Text.splitOnce " = ".toList (key ++ " = ".toList ++ (value ++ ending)) :=
            (Text.splitOnce_append hkey "= ".toList _).symm
        _ = Text.splitOnce " = ".toList (name ++ " = ".toList ++ more) := by rw [hrest]
        _ = some (name, more) := Text.splitOnce_append hname "= ".toList _
    exact (Prod.mk.inj (Option.some.inj hcut)).1
  · rintro rfl
    exact List.prefix_append _ _

theorem newline_not_mem_mapEntry {key : Text} (h : '\n' ∉ key) : '\n' ∉ mapEntry lang key := by
  unfold mapEntry
  cases lang with
  | rust => simp [h]
  | python => simp [h]

theorem filter_bindings {keys : List Text} (hnodup : keys.Nodup)
    (hkeys : ∀ key ∈ keys, ' ' ∉ key ∧ '\n' ∉ key) {key : Text} (h : key ∈ keys) :
    ((['\n'].intercalate (keys.map fun key => bindingLine lang key (mapEntry lang key))).splitOn
        '\n').filter (fun line => bindingStart lang key <+: line) =
      [bindingLine lang key (mapEntry lang key)] := by
  have hlines : (['\n'].intercalate (keys.map fun key =>
      bindingLine lang key (mapEntry lang key))).splitOn '\n' =
        keys.map fun key => bindingLine lang key (mapEntry lang key) := by
    refine List.splitOn_intercalate '\n' ?_ (by simpa using List.ne_nil_of_mem h)
    intro line hline
    obtain ⟨key, hkey, rfl⟩ := List.mem_map.mp hline
    obtain ⟨-, hfeed⟩ := hkeys key hkey
    exact newline_not_mem_bindingLine hfeed (newline_not_mem_mapEntry hfeed)
  have hfilter : keys.filter (fun other => bindingStart lang key <+:
      bindingLine lang other (mapEntry lang other)) = keys.filter (· = key) := by
    refine List.filter_congr fun other hother => ?_
    rw [decide_eq_decide, bindingStart_prefix_iff (hkeys key h).1 (hkeys other hother).1]
  rw [hlines, List.filter_map]
  simp only [Function.comp_def, hfilter, List.filter_eq, List.count_eq_one_of_mem hnodup h,
    List.replicate_one, List.map_singleton]

def braceDocument : Document where
  name := "Brace".toList
  integration := default
  parameters := [⟨"g".toList, .zero, none⟩, ⟨"m".toList, .zero, none⟩]
  states := []
  globals := []
  auxCount := 3
  constants := [⟨"w".toList, "2*m*g".toList⟩, ⟨"z[1]".toList, "w + z[2]".toList⟩]
  motion := []
  inputs := []
  dependents := []
  outputNames := []
  outputs := []
  linear := []

end Code

end MotionExport
