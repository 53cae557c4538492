import Mathlib.Tactic.Choose
import MotionExport.Proofs.Code.BodyLines
import MotionExport.Proofs.Code.LinearRewriting

/-! # Cells of the linear model

The matrices of a model and those of a generated module are paired by their place. An equation of
the linear model for an entry becomes one assignment to the same cell of the paired matrix, and what
it reads from other entries it reads from their cells.
-/

namespace MotionExport

open Expression

open Token (IsIdentifier Stand concat scan)

/-- A text of digits, one at least. -/
def IsIndex (t : Text) : Prop := t ≠ [] ∧ ∀ c ∈ t, c.isDigit = true

instance (t : Text) : Decidable (IsIndex t) :=
  decidable_of_iff ((!t.isEmpty && t.all Char.isDigit) = true)
    (by simp [IsIndex])

namespace Expression

def IndexStyle.entry (style : IndexStyle) (matrix row column : Text) : Text :=
  match style with
  | nested => matrix ++ ['['] ++ row ++ "][".toList ++ column ++ [']']
  | tuple => matrix ++ ['['] ++ row ++ ", ".toList ++ column ++ [']']

variable {name matrix row column : Text} {targets names : List Text}

theorem append_concat_indexTokens (style : IndexStyle) :
    matrix ++ concat (style.indexTokens ⟨.number, row⟩ ⟨.number, column⟩) =
      style.entry matrix row column := by
  cases style with
  | nested => simp [IndexStyle.indexTokens, IndexStyle.entry, concat, mark]
  | tuple => simp [IndexStyle.indexTokens, IndexStyle.entry, concat, mark]

theorem standsBefore_index (h : IsIndex row) (u : Text) :
    Token.StandsBefore ⟨.number, row⟩ (']' :: u) := by
  obtain ⟨hne, hdigits⟩ := h
  obtain ⟨c, v, rfl⟩ := List.exists_cons_of_ne_nil hne
  have hspan : Token.digits (c :: v ++ ']' :: u) = (c :: v, ']' :: u) :=
    Token.span_eq_iff.mpr ⟨hdigits, Bool.false_ne_true⟩
  refine Token.standsBefore_number ?_ (hdigits c List.mem_cons_self)
  exact Token.numberPart_eq_iff.mpr ⟨c :: v, [], [], by simp, hspan, rfl,
    Token.exponentPart_of_not_starts Bool.false_ne_true⟩

theorem scan_entry (hname : IsIdentifier name) (hrow : IsIndex row) (hcolumn : IsIndex column) :
    scan (IndexStyle.nested.entry name row column) =
      referenceTokens name ⟨.number, row⟩ ⟨.number, column⟩ := by
  have hstand : Stand (referenceTokens name ⟨.number, row⟩ ⟨.number, column⟩) :=
    ⟨Token.standsBefore_identifier hname Bool.false_ne_true, standsBefore_mark (by decide) _,
      standsBefore_index hrow _, standsBefore_mark (by decide) _, standsBefore_mark (by decide) _,
      standsBefore_index hcolumn _, standsBefore_mark (by decide) _, trivial⟩
  rw [← append_concat_indexTokens, ← Token.scan_concat hstand]
  rfl

end Expression

namespace Code

open Context

variable {lang : Language} {names : List Text} {c : Context} {e : Equation}
  {name target row column : Text} {k : Nat}

theorem scan_widened (lang : Language) (t : Text) :
    scan (match lang with | .rust => widenLiterals t | .python => t) =
      literalTokens lang (bracketDepth []) (scan t) := by
  cases lang with
  | rust => exact scan_widenLiterals t
  | python => rfl

theorem scan_expression_linear (c : Context) (e : Equation) :
    scan (c.expression .linear e) =
      linearTokens c.language c.matrixNames [] (scan e.expression) := by
  have hfields := namesField_matrixTargets c.language
  rw [linearTokens, ← scan_widened]
  refine (scan_onTokens guides_retargetsReference
    (keepsApart_retargetsReference hfields) _).trans ?_
  exact congrArg _ (scan_scopeAuxiliaries _)

theorem rewritten_expression_linear (hnames : c.matrixNames.Nodup) (hz : ['z'] ∉ c.matrixNames)
    (e : Equation) : Rewritten (RewritesLinear c.language c.matrixNames) [] (scan e.expression)
      (scan (c.expression .linear e)) := by
  rw [scan_expression_linear]
  exact (guides_rewritesLinear hnames hz).rewritten (Token.stand_scan _)

theorem retargeted_entry (hnames : c.matrixNames.Nodup) (hname : IsIdentifier name)
    (hrow : IsIndex row) (hcolumn : IsIndex column) (hk : c.matrixNames[k]? = some name)
    (ht : c.language.matrixTargets[k]? = some target) :
    c.retargeted (IndexStyle.nested.entry name row column) =
      c.language.indexStyle.entry target row column := by
  have htarget := (targetOf?_eq_some_iff hnames).mpr ⟨k, hk, ht⟩
  have hrule : RetargetsReference c.matrixNames c.language.matrixTargets c.language.indexStyle []
      (referenceTokens name ⟨.number, row⟩ ⟨.number, column⟩) []
      (scan target ++ c.language.indexStyle.indexTokens ⟨.number, row⟩ ⟨.number, column⟩) :=
    .intro rfl rfl htarget rfl
  have hwritten := guides_retargetsReference.expand hrule
  rw [List.append_nil, guides_retargetsReference.nil, List.append_nil] at hwritten
  calc c.retargeted (IndexStyle.nested.entry name row column)
      = concat (retargetTokens c.matrixNames c.language.matrixTargets c.language.indexStyle 0 none
          (referenceTokens name ⟨.number, row⟩ ⟨.number, column⟩)) := by
        rw [← scan_entry hname hrow hcolumn]
        rfl
    _ = concat (scan target ++
          c.language.indexStyle.indexTokens ⟨.number, row⟩ ⟨.number, column⟩) :=
        congrArg concat hwritten
    _ = c.language.indexStyle.entry target row column := by
        rw [Token.concat_append, Token.concat_scan, append_concat_indexTokens]

theorem entry_eq (name row column : Text) : IndexStyle.nested.entry name row column =
    name ++ '[' :: (row ++ "][".toList ++ column ++ [']']) := by
  simp [IndexStyle.entry]

theorem not_isAuxiliary_of_entry (hname : IsIdentifier name) (hz : name ≠ ['z'])
    (he : e.lhs = IndexStyle.nested.entry name row column) : e.isAuxiliary = false := by
  rw [Equation.isAuxiliary, he, entry_eq, Bool.eq_false_iff]
  intro hstarts
  obtain ⟨rest, hrest⟩ := List.isPrefixOf_iff_prefix.mp hstarts
  obtain ⟨first, v, rfl, -, hv⟩ := hname.exists_cons
  have hcons : 'z' :: '[' :: rest = first :: v ++ '[' :: _ := hrest
  obtain ⟨rfl, htail⟩ := List.cons.inj hcons
  cases v with
  | nil => exact hz rfl
  | cons second v =>
    obtain ⟨rfl, -⟩ := List.cons.inj htail
    exact absurd (hv '[' List.mem_cons_self) (by decide)

theorem isMatrixEntry_of_entry (hname : name ∈ c.matrixNames)
    (he : e.lhs = IndexStyle.nested.entry name row column) : c.isMatrixEntry e = true := by
  rw [isMatrixEntry, indexedMatrix?, List.find?_isSome]
  have hstarts : name ++ ['['] <+: e.lhs := by
    rw [he, entry_eq]
    exact (List.prefix_append_right_inj name).mpr ⟨_, rfl⟩
  exact ⟨name, hname, List.isPrefixOf_iff_prefix.mpr hstarts⟩

/-- An equation for an entry is one assignment to the same cell of the target. -/
theorem statement_of_entry (hnames : c.matrixNames.Nodup) (hname : IsIdentifier name)
    (hz : name ≠ ['z']) (hrow : IsIndex row) (hcolumn : IsIndex column)
    (hk : c.matrixNames[k]? = some name) (ht : c.language.matrixTargets[k]? = some target)
    (he : e.lhs = IndexStyle.nested.entry name row column) :
    c.statement .linear e = [c.language.assignment (c.language.indexStyle.entry target row column)
      (c.expression .linear e)] := by
  have hentry := isMatrixEntry_of_entry (List.mem_of_getElem? hk) he
  have hcell := retargeted_entry hnames hname hrow hcolumn hk ht
  simp only [statement, not_isAuxiliary_of_entry hname hz he, hentry, he, hcell, and_self, if_true,
    Bool.false_eq_true, if_false]

/-- The letters of the matrices of a generated module, in the order of their places. -/
def cellLetters : Language → List Char
  | .rust => ['a', 'b', 'c', 'd']
  | .python => ['A', 'B', 'C', 'D']

def cellLine (lang : Language) (letter : Char) (row column value : Text) : Text :=
  match lang with
  | .rust => List.replicate 8 ' ' ++ "linear.".toList ++ [letter, '['] ++ row ++ "][".toList
      ++ column ++ "] = ".toList ++ value ++ [';']
  | .python => List.replicate 8 ' ' ++ "self.".toList ++ [letter, '['] ++ row ++ ", ".toList
      ++ column ++ "] = ".toList ++ value

/-- The block of the linear model has a line for each equation, which for an entry of a matrix
assigns to the same cell of the matrix at that place. -/
structure WritesCells (lang : Language) (names : List Text) (d : Document)
    (line : Equation → Text) : Prop where
  /-- The lines are in the order of the equations, below the declarations of local arrays. -/
  block_eq : value lang names d .linear = ['\n'].intercalate
    (((context lang names d).localArrays d.linear).map
        (fun (name, length) => declarationLine lang name length) ++ d.linear.map line)
  /-- Equations for entries of matrices need no arrays. -/
  no_arrays : (∀ e ∈ d.linear, (indexedMatrix? names e.lhs).isSome = true) →
    (context lang names d).localArrays d.linear = []
  cell : ∀ e ∈ d.linear, ∀ (k : Nat) (name : Text) (letter : Char) (row column : Text),
    names[k]? = some name → (cellLetters lang)[k]? = some letter → IsIndex row → IsIndex column →
      e.lhs = name ++ ['['] ++ row ++ "][".toList ++ column ++ [']'] →
    line e = cellLine lang letter row column ((context lang names d).expression .linear e)
  /-- On the right sides nothing is written anew but references to entries, auxiliary variables and
  literals. -/
  right_sides : ∀ e ∈ d.linear, Rewritten (RewritesLinear lang names) [] (scan e.expression)
    (scan ((context lang names d).expression .linear e))

/-- The targets have the letters behind their owner, and so have the lines of their cells. -/
theorem exists_owner_eq (lang : Language) : ∃ owner : Text,
    lang.matrixTargets = (cellLetters lang).map (fun letter => owner ++ [letter]) ∧
      ∀ letter row column value,
        assignmentLine lang (lang.indexStyle.entry (owner ++ [letter]) row column) value =
          cellLine lang letter row column value := by
  have hends : "] = ".toList = [']'] ++ " = ".toList := by decide
  cases lang with
  | rust =>
    refine ⟨"linear.".toList, by decide, fun letter row column value => ?_⟩
    simp only [assignmentLine, cellLine, Language.indexStyle, IndexStyle.entry, hends,
      List.append_assoc, List.cons_append, List.nil_append]
  | python =>
    refine ⟨"self.".toList, by decide, fun letter row column value => ?_⟩
    simp only [assignmentLine, cellLine, Language.indexStyle, IndexStyle.entry, hends,
      List.append_assoc, List.cons_append, List.nil_append]

theorem exists_line_linear (c : Context) (e : Equation) :
    ∃ line, (c.statement .linear e).map (List.replicate 8 ' ' ++ ·) = [line] := by
  unfold statement
  dsimp only
  split
  · exact ⟨_, rfl⟩
  · split
    · exact ⟨_, rfl⟩
    · split
      · exact ⟨_, rfl⟩
      · exact ⟨_, rfl⟩

theorem localArrays_eq_nil {es : List Equation} (h : ∀ e ∈ es, c.isMatrixEntry e = true) :
    c.localArrays es = [] := by
  have hnone : es.filterMap c.localElement? = [] := by
    rw [List.filterMap_eq_nil_iff]
    intro e he
    rw [localElement?, h e he, Bool.or_true, if_pos rfl]
  rw [localArrays, hnone]
  rfl

/-- Equations for entries of matrices with different names are written to the cells of the matrices
at the same places. -/
theorem linear_entries_in_cells {names : List Text} (hnames : names.Nodup)
    (hidentifiers : ∀ name ∈ names, IsIdentifier name) (hz : ['z'] ∉ names) (lang : Language)
    (d : Document) : ∃ line, WritesCells lang names d line := by
  choose line hline using exists_line_linear (context lang names d)
  refine ⟨line, { block_eq := ?block, no_arrays := ?arrays, cell := ?cell, right_sides := ?right }⟩
  case block =>
    have hblock := Code.block_eq (context lang names d) .linear d.linear
    simp only [hline, ← List.map_eq_flatMap] at hblock
    exact hblock
  case arrays => exact localArrays_eq_nil (c := context lang names d)
  case cell =>
    intro e he k name letter row column hk hletter hrow hcolumn hlhs
    obtain ⟨owner, htargets, hcell⟩ := exists_owner_eq lang
    have ht : lang.matrixTargets[k]? = some (owner ++ [letter]) := by
      rw [htargets, List.getElem?_map, hletter]
      rfl
    have hmem := List.mem_of_getElem? hk
    have hfree : name ≠ ['z'] := by
      rintro rfl
      exact hz hmem
    have hstatement : (context lang names d).statement .linear e = _ :=
      statement_of_entry hnames (hidentifiers name hmem) hfree hrow hcolumn hk ht hlhs
    have hwritten := hline e
    rw [hstatement, List.map_singleton, indent_assignment] at hwritten
    exact (List.singleton_inj.mp hwritten).symm.trans (hcell letter row column _)
  case right =>
    exact fun e _ => rewritten_expression_linear (c := context lang names d) hnames hz e

def hoveringDocument : Document where
  name := "Hover".toList
  integration := default
  parameters := []
  states := []
  globals := []
  auxCount := 0
  constants := []
  motion := []
  inputs := []
  dependents := []
  outputNames := []
  outputs := []
  linear := [⟨"A[0][1]".toList, "z[3]".toList⟩, ⟨"C[1][0]".toList, "2*A[0][1] - z[4]".toList⟩]

theorem hoveringDocument_in_cells :
    defaultMatrixNames.Nodup ∧ (∀ name ∈ defaultMatrixNames, IsIdentifier name) ∧
      ['z'] ∉ defaultMatrixNames ∧
      value .rust defaultMatrixNames hoveringDocument .linear = ['\n'].intercalate
        ["        linear.a[0][1] = self.z[3];".toList,
          "        linear.c[1][0] = 2.0*linear.a[0][1] - self.z[4];".toList] := by
  have hnames : defaultMatrixNames.Nodup := by decide
  have hidentifiers : ∀ name ∈ defaultMatrixNames, IsIdentifier name := by decide
  have hz : ['z'] ∉ defaultMatrixNames := by decide
  obtain ⟨line, hblock, hnone, hcell, -⟩ :=
    linear_entries_in_cells hnames hidentifiers hz .rust hoveringDocument
  have hfirst := hcell ⟨"A[0][1]".toList, "z[3]".toList⟩ (by decide) 0 ['A'] 'a' ['0'] ['1'] rfl rfl
    (by decide) (by decide) rfl
  have hsecond := hcell ⟨"C[1][0]".toList, "2*A[0][1] - z[4]".toList⟩ (by decide) 2 ['C'] 'c' ['1']
    ['0'] rfl rfl (by decide) (by decide) rfl
  refine ⟨hnames, hidentifiers, hz, ?_⟩
  rw [hblock, hnone (by decide)]
  show ['\n'].intercalate [line _, line _] = _
  rw [hfirst, hsecond]
  decide +kernel

end Code

end MotionExport
