import MotionExport.Proofs.Export.Routing

/-! # Placement

A log that has been sorted, statement by statement. Constants, equations of motion and specified
inputs follow their section. The statements of the two output blocks are divided between the outputs
and the linear model, with those of one block behind those of the other.
-/

namespace MotionExport

open ParsedStatement (inSection equations)

theorem ParsedStatement.append_eq_inSection {statements part later : List ParsedStatement}
    {s s' : FileSection} (hne : s ≠ s') (hp : part.Sublist (inSection statements s))
    (hl : later.Sublist (inSection statements s')) :
    part ++ later = inSection (part ++ later) s ++ inSection (part ++ later) s' := by
  have hsplit : ∀ q, inSection (part ++ later) q = inSection part q ++ inSection later q :=
    fun _ => List.filter_append ..
  rw [hsplit, hsplit, inSection_of_sublist hp, inSection_of_sublist hp, inSection_of_sublist hl,
    inSection_of_sublist hl]
  simp [hne, hne.symm]

def FileSection.isOutputBlock : FileSection → Bool
  | writeOutput => true
  | evaluateOutput => true
  | _ => false

/-- The statements of a log, in the collections of its sorting. -/
structure Placement where
  constants : List ParsedStatement
  motion : List ParsedStatement
  inputs : List ParsedStatement
  dependents : List ParsedStatement
  outputs : List ParsedStatement
  linear : List ParsedStatement

namespace Placement

def sorting (c : Placement) : Classification where
  constants := c.constants.map (·.equation)
  motion := c.motion.map (·.equation)
  inputs := c.inputs.map (·.equation)
  dependents := c.dependents.map (·.equation)
  outputs := c.outputs.map (·.equation)
  linear := c.linear.map (·.equation)

def ofSection (c : Placement) : FileSection → List ParsedStatement
  | .constants => c.constants
  | .motion => c.motion
  | .specified => c.inputs
  | _ => []

theorem ofSection_of_isOutputBlock (c : Placement) {s : FileSection} (h : s.isOutputBlock = true) :
    c.ofSection s = [] := by
  cases s with
  | constants => cases h
  | motion => cases h
  | specified => cases h
  | writeOutput => rfl
  | evaluateOutput => rfl

/-- Every statement is placed in one collection, once, and the statements of a section keep their
order. The outputs of the write block come first, and its part of the linear model comes last. The
dependent variables are equations of motion that are listed a second time. -/
structure Places (c : Placement) (statements : List ParsedStatement) : Prop where
  ofSection_eq : ∀ s, s.isOutputBlock = false → c.ofSection s = inSection statements s
  dependents_sublist : c.dependents.Sublist c.motion
  perm : (c.constants ++ c.motion ++ c.inputs ++ c.outputs ++ c.linear).Perm statements
  ordered : ∀ part ∈ [c.outputs, c.linear], ∀ s,
    (inSection part s).Sublist (inSection statements s)
  outputs_eq : c.outputs = inSection c.outputs .writeOutput ++ inSection c.outputs .evaluateOutput
  linear_eq : c.linear = inSection c.linear .evaluateOutput ++ inSection c.linear .writeOutput

/-- The placement of a log whose evaluation block switches to the linear model behind `early`. -/
def switched (outputNames matrixNames : List Text) (statements early late : List ParsedStatement) :
    Placement where
  constants := inSection statements .constants
  motion := inSection statements .motion
  inputs := inSection statements .specified
  dependents := (inSection statements .motion).filter fun p =>
    !p.equation.isAuxiliary && outputNames.contains p.equation.lhs
  outputs := (inSection statements .writeOutput).filter (!·.isMatrixEntry matrixNames) ++
    early.filter (!·.isMatrixEntry matrixNames)
  linear := (early.filter (·.isMatrixEntry matrixNames) ++ late) ++
    (inSection statements .writeOutput).filter (·.isMatrixEntry matrixNames)

variable {outputNames matrixNames : List Text} {statements early late : List ParsedStatement}

theorem places_switched (h : inSection statements .evaluateOutput = early ++ late) :
    (switched outputNames matrixNames statements early late).Places statements where
  ofSection_eq s hs := by
    cases s with
    | constants => rfl
    | motion => rfl
    | specified => rfl
    | writeOutput => cases hs
    | evaluateOutput => cases hs
  dependents_sublist := List.filter_sublist
  perm := ParsedStatement.perm_collections h (·.isMatrixEntry matrixNames)
  ordered := ParsedStatement.ordered_collections h (·.isMatrixEntry matrixNames)
  outputs_eq := ParsedStatement.append_eq_inSection (by decide) List.filter_sublist <| by
    rw [h]
    exact List.filter_sublist.trans (List.sublist_append_left early late)
  linear_eq := ParsedStatement.append_eq_inSection (by decide)
    (h ▸ List.filter_sublist.append_right late) List.filter_sublist

variable {log : StatementLog} {stateNames : List Text} {sorted : Classification}

theorem exists_switched_of_ofLog
    (h : Classification.ofLog log stateNames matrixNames = .ok sorted) :
    ∃ statements early late, statements.map (·.logged) = log.statements ∧
      inSection statements .evaluateOutput = early ++ late ∧
      (switched log.outputNames matrixNames statements early late).sorting = sorted := by
  obtain ⟨statements, hlogged⟩ := Classification.exists_parsedStatements_of_ofLog h
  rw [Classification.ofLog_eq_sort hlogged] at h
  obtain ⟨front, back, hsplit, -, rfl⟩ := Classification.exists_switch_of_sort h
  obtain ⟨early, late, hevaluated, rfl, rfl⟩ := List.map_eq_append_iff.mp hsplit
  refine ⟨statements, early, late, hlogged, hevaluated, ?_⟩
  simp only [sorting, switched, equations, List.map_append, List.filter_map]
  rfl

theorem exists_places_of_ofLog (h : Classification.ofLog log stateNames matrixNames = .ok sorted) :
    ∃ (statements : List ParsedStatement) (c : Placement),
      statements.map (·.logged) = log.statements ∧ c.Places statements ∧ c.sorting = sorted := by
  obtain ⟨statements, early, late, hlogged, hevaluated, hsorted⟩ := exists_switched_of_ofLog h
  exact ⟨statements, _, hlogged, places_switched hevaluated, hsorted⟩

namespace Places

variable {c : Placement} {p : ParsedStatement}

theorem count_eq (h : c.Places statements) (p : ParsedStatement) :
    statements.count p = c.constants.count p + c.motion.count p + c.inputs.count p +
      c.outputs.count p + c.linear.count p := by
  rw [← h.perm.count_eq p]
  simp only [List.count_append]

theorem not_mem_ofSection (h : c.Places statements) {s : FileSection} (hne : p.origin ≠ s) :
    p ∉ c.ofSection s := by
  cases hs : s.isOutputBlock with
  | true =>
    rw [c.ofSection_of_isOutputBlock hs]
    exact List.not_mem_nil
  | false =>
    rw [h.ofSection_eq s hs]
    exact fun hp => hne (of_decide_eq_true (List.mem_filter.mp hp).2)

/-- What a section says that is no output block goes to its collection, once. -/
theorem count_ofSection (h : c.Places statements) (hp : p.origin.isOutputBlock = false) :
    (c.ofSection p.origin).count p = statements.count p := by
  rw [h.ofSection_eq _ hp]
  exact List.count_filter (decide_eq_true rfl)

end Places

end Placement

end MotionExport
