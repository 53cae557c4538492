import MotionExport.Artifact.Report
import MotionExport.Code.Module
import MotionExport.Proofs.Model.StrippedDocument

/-! # Artifacts with and without terminators

Everything that is written of an equation is its left side and its expression, and an expression has
no terminator. A terminator that was kept therefore leaves no trace, unless the statement ended in
two.
-/

namespace MotionExport

namespace Equation

variable {e : Equation} {es : List Equation}

theorem expression_of_isTerminated (h : e.IsTerminated) :
    e.expression = Text.trimEnd e.rhs.dropLast := by
  obtain ⟨t, ht⟩ := Text.endsWith_iff.mp h
  have hb : Text.before? [';'] e.rhs = some t := Text.before?_eq_some_iff.mpr ht.symm
  rw [expression, hb, ht, List.dropLast_concat]
  rfl

theorem expression_of_not_isTerminated (h : ¬ e.IsTerminated) :
    e.expression = Text.trimEnd e.rhs := by
  have hb : Text.before? [';'] e.rhs = none := by
    rw [Option.eq_none_iff_forall_not_mem]
    intro t ht
    exact h (Text.endsWith_iff.mpr ⟨t, (Text.before?_eq_some_iff.mp ht).symm⟩)
  rw [expression, hb]
  rfl

/-- Removing the terminator changes no expression, unless another one stood before it. -/
theorem expression_stripped (h : e.IsTerminated) (hs : ¬ e.stripped.IsTerminated) :
    e.stripped.expression = e.expression := by
  rw [expression_of_isTerminated h, expression_of_not_isTerminated hs]
  exact Text.trimEnd_trimEnd _

example : (Equation.mk ['x'] "1;;".toList).expression = "1;".toList ∧
    (Equation.mk ['x'] "1;;".toList).stripped.expression = ['1'] := by decide

def KeepExpressions (es : List Equation) : Prop :=
  ∀ e ∈ es, e.stripped.expression = e.expression

theorem map_stripped_eq {β : Type*} {f : Equation → β} (h : KeepExpressions es)
    (hf : ∀ e : Equation, e.stripped.expression = e.expression → f e.stripped = f e) :
    (es.map stripped).map f = es.map f := by
  rw [List.map_map]
  exact List.map_congr_left fun e he => hf e (h e he)

theorem map_toText_stripped (h : KeepExpressions es) :
    (es.map stripped).map toText = es.map toText :=
  map_stripped_eq h fun e he => by rw [toText, toText, he, lhs_stripped]

end Equation

open Equation

namespace Code.Context

variable (c : Context) {kind : BlockKind} {e : Equation} {es : List Equation}

theorem expression_stripped (h : e.stripped.expression = e.expression) :
    c.expression kind e.stripped = c.expression kind e := by
  simp only [Context.expression, h]

theorem statement_stripped (h : e.stripped.expression = e.expression) :
    c.statement kind e.stripped = c.statement kind e := by
  have hm : c.isMatrixEntry e.stripped = c.isMatrixEntry e := rfl
  simp only [statement, c.expression_stripped h, hm, lhs_stripped, isAuxiliary_stripped]

theorem localArrays_stripped (es : List Equation) :
    c.localArrays (es.map stripped) = c.localArrays es := by
  rw [localArrays, localArrays, List.filterMap_map]
  rfl

theorem block_stripped (h : KeepExpressions es) :
    c.block kind (es.map stripped) = c.block kind es := by
  have hstatements : (es.map stripped).flatMap (c.statement kind) =
      es.flatMap (c.statement kind) := by
    rw [List.flatMap_def, List.flatMap_def, map_stripped_eq h fun e => c.statement_stripped]
  rw [block, block, blockLines, blockLines, c.localArrays_stripped, hstatements]

end Code.Context

namespace Document

variable {d : Document}

theorem steadyAmong_stripped {es : List Equation} (h : KeepExpressions es) (varying : List Text) :
    steadyAmong varying (es.map Equation.stripped) =
      (steadyAmong varying es).map Equation.stripped := by
  induction es generalizing varying with
  | nil => rfl
  | cons e es ih =>
    obtain ⟨he, hes⟩ := List.forall_mem_cons.mp h
    have hreads : e.stripped.reads = e.reads := congrArg Expression.namesRead he
    rw [List.map_cons, steadyAmong, steadyAmong, hreads, isAuxiliary_stripped, lhs_stripped,
      ih hes, ih hes]
    split
    · rfl
    · rfl

theorem steadyAmong_sublist (varying : List Text) (es : List Equation) :
    (steadyAmong varying es).Sublist es := by
  induction es generalizing varying with
  | nil => exact List.Sublist.refl []
  | cons e es ih =>
    rw [steadyAmong]
    split
    · exact (ih varying).cons_cons e
    · exact (ih _).cons e

theorem addDefined_stripped (names : List Text) (es : List Equation) :
    addDefined names (es.map Equation.stripped) = addDefined names es := by
  induction es generalizing names with
  | nil => rfl
  | cons e es ih =>
    rw [List.map_cons, addDefined, addDefined, isAuxiliary_stripped, lhs_stripped, ih, ih]

theorem keepExpressions_parts (h : KeepExpressions d.equations) :
    KeepExpressions d.constants ∧ KeepExpressions d.motion ∧ KeepExpressions d.inputs ∧
      KeepExpressions d.dependents ∧ KeepExpressions d.outputs ∧ KeepExpressions d.linear := by
  simp only [KeepExpressions, equations, List.forall_mem_append] at h ⊢
  obtain ⟨⟨⟨⟨⟨hc, hm⟩, hi⟩, hd⟩, ho⟩, hl⟩ := h
  exact ⟨hc, hm, hi, hd, ho, hl⟩

theorem report_stripped (h : KeepExpressions d.equations) : d.stripped.report = d.report := by
  obtain ⟨hc, hm, hi, hd, ho, hl⟩ := keepExpressions_parts h
  have hlines : d.stripped.reportLines = d.reportLines := by
    funext s
    cases s with
    | constants => exact map_toText_stripped hc
    | motion => exact map_toText_stripped hm
    | inputs => exact map_toText_stripped hi
    | dependents => exact map_toText_stripped hd
    | outputs => exact map_toText_stripped ho
    | linear => exact map_toText_stripped hl
    | name => rfl
    | integration => rfl
    | parameters => rfl
    | states => rfl
    | outputNames => rfl
  rw [report, report, hlines]

theorem mappedNames_stripped (d : Document) : d.stripped.mappedNames = d.mappedNames :=
  addDefined_stripped d.parameterNames d.constants

theorem inputNames_stripped (d : Document) : d.stripped.inputNames = d.inputNames :=
  map_lhs_stripped d.inputs

theorem steadyAuxiliaries_stripped (h : KeepExpressions d.motion) :
    d.stripped.steadyAuxiliaries = d.steadyAuxiliaries.map Equation.stripped := by
  rw [steadyAuxiliaries, inputNames_stripped]
  exact steadyAmong_stripped h _

end Document

namespace Code

variable {d : Document}

theorem inputAssignments_stripped (c : Context) {inputs : List Equation}
    (h : KeepExpressions inputs) :
    inputAssignments c (inputs.map Equation.stripped) = inputAssignments c inputs := by
  rw [inputAssignments, inputAssignments, List.zipIdx_map, List.map_map]
  congr 1
  refine List.map_congr_left fun p hp => ?_
  have he : c.expression .plain p.1.stripped = c.expression .plain p.1 :=
    c.expression_stripped (h p.1 (List.fst_mem_of_mem_zipIdx hp))
  simp only [Function.comp_apply, Prod.map_fst, Prod.map_snd, id, he]

theorem value_stripped (lang : Language) (matrixNames : List Text)
    (h : KeepExpressions d.equations) (p : Placeholder) :
    value lang matrixNames d.stripped p = value lang matrixNames d p := by
  obtain ⟨hc, hm, hi, hd, ho, hl⟩ := Document.keepExpressions_parts h
  have hctx : context lang matrixNames d.stripped = context lang matrixNames d := by
    rw [context, context, Document.mappedNames_stripped]
  have hs : KeepExpressions d.steadyAuxiliaries := fun e he =>
    hm e ((Document.steadyAmong_sublist _ _).subset he)
  unfold value
  rw [hctx, Document.mappedNames_stripped, Document.inputNames_stripped,
    Document.steadyAuxiliaries_stripped hm]
  cases p with
  | constants => exact Context.block_stripped _ hc
  | motion => exact Context.block_stripped _ hm
  | inputs => exact inputAssignments_stripped _ hi
  | steadyAuxiliaries => exact Context.block_stripped _ hs
  | dependents => exact Context.block_stripped _ hd
  | outputs => exact Context.block_stripped _ ho
  | linear => exact Context.block_stripped _ hl
  | _ => rfl

theorem values_stripped (lang : Language) (matrixNames : List Text)
    (h : KeepExpressions d.equations) :
    values lang matrixNames d.stripped = values lang matrixNames d :=
  List.map_congr_left fun p _ => by rw [value_stripped lang matrixNames h p]

end Code

/-- The documents of the runs with and without terminators tell the same model. Unless a statement
ends in a second terminator, all that is written of them is the same. -/
structure SameModel (keep strip : Document) : Prop extends
    Document.DiffersByTerminators keep strip where
  report_eq : (∀ e ∈ strip.equations, ¬ e.IsTerminated) → keep.report = strip.report
  values_eq : (∀ e ∈ strip.equations, ¬ e.IsTerminated) →
    ∀ lang matrixNames, Code.values lang matrixNames keep = Code.values lang matrixNames strip

theorem keepExpressions_of_not_isTerminated {d : Document}
    (hk : ∀ e ∈ d.equations, e.IsTerminated)
    (hs : ∀ e ∈ d.stripped.equations, ¬ e.IsTerminated) : KeepExpressions d.equations := by
  intro e he
  refine Equation.expression_stripped (hk e he) (hs e.stripped ?_)
  have hequations : d.stripped.equations = d.equations.map Equation.stripped := by
    simp only [Document.equations, Document.stripped, List.map_append]
  rw [hequations]
  exact List.mem_map_of_mem he

/-- Keeping the terminators changes nothing of what an export pair says. -/
theorem ofExport_keep_matches_strip (settings : ExportSettings)
    (name parameterText equationText : Text) :
    Matched SameCause SameModel
      (Document.ofExport { settings with terminator := .keep } name parameterText equationText)
      (Document.ofExport { settings with terminator := .strip } name parameterText
        equationText) := by
  refine (Document.matched_ofExport settings parameterText equationText).imp (fun _ _ h => h) ?_
  rintro keep _ ⟨rfl, hk⟩
  refine ⟨⟨rfl, hk⟩, fun hs => ?_, fun hs lang matrixNames => ?_⟩
  · exact (Document.report_stripped (keepExpressions_of_not_isTerminated hk hs)).symm
  · exact (Code.values_stripped lang matrixNames
      (keepExpressions_of_not_isTerminated hk hs)).symm

end MotionExport
