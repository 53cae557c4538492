import Mathlib.Tactic.Tauto
import MotionExport.Proofs.Export.Switch
import MotionExport.Proofs.Export.TerminatedLog

/-! # Sorting with and without terminators

Equations are sorted by their left sides, and a terminator stands on the right. The runs with and
without terminators therefore sort alike, and differ only in what they say of a statement that is no
assignment.
-/

namespace MotionExport

namespace Equation

def stripped (e : Equation) : Equation := { e with rhs := Text.trimEnd e.rhs.dropLast }

def IsTerminated (e : Equation) : Prop := e.rhs.endsWith ';' = true

@[simp] theorem lhs_stripped (e : Equation) : e.stripped.lhs = e.lhs := rfl

@[simp] theorem isAuxiliary_stripped (e : Equation) : e.stripped.isAuxiliary = e.isAuxiliary := rfl

end Equation

/-- Two errors of the same cause. Only the statement quoted by one of them has a terminator. -/
inductive SameCause : ExportError → ExportError → Prop where

  | same (e : ExportError) : SameCause e e

  | noAssignment (line : Nat) (statement : Text) :
      SameCause (.malformedLine line (.noAssignment (terminated statement)))
        (.malformedLine line (.noAssignment statement))

/-- The equations of the run with terminators have them, and those of the other run are the same
without them. -/
structure SameEquations (keep strip : List Equation) : Prop where
  strip_eq : strip = keep.map Equation.stripped
  terminated : ∀ e ∈ keep, e.IsTerminated

theorem matched_parse (statement : Text) (line : Nat) :
    Matched SameCause (fun keep strip => strip = keep.stripped ∧ keep.IsTerminated)
      (Equation.parse (terminated statement) line) (Equation.parse statement line) := by
  have hcut := Text.splitOnce_concat (t := statement) (c := ';') (a := '=') (by decide)
  unfold Equation.parse terminated
  rw [hcut]
  cases h : Text.splitOnce ['='] statement with
  | none => exact .error (.noAssignment line statement)
  | some p =>
    obtain ⟨lhs, rhs⟩ := p
    simp only [Option.map_some]
    split
    · exact .error (.same _)
    · rw [Text.trim_concat Text.isBlank_semicolon]
      refine .ok ⟨?_, Text.endsWith_concat⟩
      rw [Equation.stripped, List.dropLast_concat]
      rfl

namespace StatementLog

theorem inSection_terminated (log : StatementLog) (s : FileSection) :
    log.terminated.inSection s = (log.inSection s).map LoggedStatement.terminated := List.filter_map

end StatementLog

namespace Classification

variable {stateNames matrixNames : List Text}

theorem matched_equationsIn (log : StatementLog) (s : FileSection) :
    Matched SameCause SameEquations (equationsIn log.terminated s) (equationsIn log s) := by
  rw [equationsIn, equationsIn, StatementLog.inSection_terminated]
  induction log.inSection s with
  | nil => exact .ok ⟨rfl, by simp⟩
  | cons e statements ih =>
    rw [List.map_cons, List.mapM_cons, List.mapM_cons]
    refine (matched_parse e.statement e.line).bind ?_
    rintro keep _ ⟨rfl, hk⟩
    refine ih.bind ?_
    rintro later _ ⟨rfl, hl⟩
    exact .ok ⟨rfl, List.forall_mem_cons.mpr ⟨hk, hl⟩⟩

def stripped (c : Classification) : Classification where
  constants := c.constants.map Equation.stripped
  motion := c.motion.map Equation.stripped
  inputs := c.inputs.map Equation.stripped
  dependents := c.dependents.map Equation.stripped
  outputs := c.outputs.map Equation.stripped
  linear := c.linear.map Equation.stripped

def equations (c : Classification) : List Equation :=
  c.constants ++ c.motion ++ c.inputs ++ c.dependents ++ c.outputs ++ c.linear

theorem filter_stripped {q : Equation → Bool} (h : ∀ e : Equation, q e.stripped = q e)
    (es : List Equation) :
    (es.map Equation.stripped).filter q = (es.filter q).map Equation.stripped := by
  rw [List.filter_map]
  congr 2
  funext e
  exact h e

theorem routeEvaluated_stripped (pending : List Text) (es : List Equation) :
    routeEvaluated matrixNames pending (es.map Equation.stripped) =
      ((routeEvaluated matrixNames pending es).1.map Equation.stripped,
        (routeEvaluated matrixNames pending es).2.1.map Equation.stripped,
        (routeEvaluated matrixNames pending es).2.2) := by
  induction es generalizing pending with
  | nil => rfl
  | cons e es ih =>
    have hm : isMatrixEntry matrixNames e.stripped = isMatrixEntry matrixNames e := rfl
    rw [List.map_cons, routeEvaluated, routeEvaluated, hm, ih, ih]
    split
    · rfl
    · rfl

theorem pendingOutputs_stripped (outputNames : List Text) (defining : List Equation) :
    pendingOutputs outputNames stateNames (defining.map Equation.stripped) =
      pendingOutputs outputNames stateNames defining := by
  rw [pendingOutputs, pendingOutputs, List.map_map]
  rfl

variable {outputNames : List Text} {constants motion inputs written evaluated : List Equation}

theorem sort_stripped :
    sort outputNames stateNames matrixNames (constants.map Equation.stripped)
        (motion.map Equation.stripped) (inputs.map Equation.stripped)
        (written.map Equation.stripped) (evaluated.map Equation.stripped) =
      (sort outputNames stateNames matrixNames constants motion inputs written evaluated).map
        stripped := by
  have hentry : ∀ e : Equation,
      isMatrixEntry matrixNames e.stripped = isMatrixEntry matrixNames e := fun _ => rfl
  unfold sort
  dsimp only
  rw [filter_stripped hentry, filter_stripped fun e => congrArg not e.isAuxiliary_stripped,
    filter_stripped fun e => congrArg not (hentry e), ← List.map_append,
    pendingOutputs_stripped, routeEvaluated_stripped, filter_stripped fun _ => rfl]
  split
  · rfl
  · simp only [Except.map, stripped, List.map_append]

theorem mem_of_sort {sorted : Classification}
    (h : sort outputNames stateNames matrixNames constants motion inputs written evaluated =
      .ok sorted) :
    ∀ e ∈ sorted.equations, e ∈ constants ++ motion ++ inputs ++ written ++ evaluated := by
  obtain ⟨early, late, rfl, -, rfl⟩ := exists_switch_of_sort h
  intro e he
  simp only [equations, List.mem_append, List.mem_filter] at he ⊢
  tauto

theorem matched_ofLog (log : StatementLog) :
    Matched SameCause
      (fun keep strip => strip = keep.stripped ∧ ∀ e ∈ keep.equations, e.IsTerminated)
      (ofLog log.terminated stateNames matrixNames) (ofLog log stateNames matrixNames) := by
  rw [ofLog_eq, ofLog_eq]
  refine (matched_equationsIn log .constants).bind ?_
  rintro constants _ ⟨rfl, hc⟩
  refine (matched_equationsIn log .motion).bind ?_
  rintro motion _ ⟨rfl, hm⟩
  refine (matched_equationsIn log .specified).bind ?_
  rintro inputs _ ⟨rfl, hi⟩
  refine (matched_equationsIn log .writeOutput).bind ?_
  rintro written _ ⟨rfl, hw⟩
  refine (matched_equationsIn log .evaluateOutput).bind ?_
  rintro evaluated _ ⟨rfl, he⟩
  have hnames : log.terminated.outputNames = log.outputNames := rfl
  rw [sort_stripped, hnames]
  cases h : sort log.outputNames stateNames matrixNames constants motion inputs written
    evaluated with
  | error e => exact .error (.same e)
  | ok sorted =>
    refine .ok ⟨rfl, fun e hmem => ?_⟩
    have hsection := mem_of_sort h e hmem
    simp only [List.mem_append] at hsection
    rcases hsection with (((h | h) | h) | h) | h
    · exact hc e h
    · exact hm e h
    · exact hi e h
    · exact hw e h
    · exact he e h

end Classification

end MotionExport
