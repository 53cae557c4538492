import MotionExport.Model.Assembly
import MotionExport.Proofs.Export.StrippedSorting

/-! # Documents with and without terminators

Names are all that a document is checked for, and no name has a terminator. The documents of an
export pair with and without terminators are thus built together, or fail together.
-/

namespace MotionExport

namespace Document

def stripped (d : Document) : Document :=
  { d with
    constants := d.constants.map Equation.stripped
    motion := d.motion.map Equation.stripped
    inputs := d.inputs.map Equation.stripped
    dependents := d.dependents.map Equation.stripped
    outputs := d.outputs.map Equation.stripped
    linear := d.linear.map Equation.stripped }

def equations (d : Document) : List Equation :=
  d.constants ++ d.motion ++ d.inputs ++ d.dependents ++ d.outputs ++ d.linear

theorem map_lhs_stripped (es : List Equation) :
    (es.map Equation.stripped).map (·.lhs) = es.map (·.lhs) := List.map_map

theorem outputKind?_stripped (d : Document) (name : Text) :
    d.stripped.outputKind? name = d.outputKind? name := by
  unfold outputKind?
  rw [stripped, map_lhs_stripped, map_lhs_stripped]
  rfl

theorem validate_stripped (d : Document) : d.stripped.validate = d.validate := by
  have hundefined : d.stripped.undefinedOutputs = d.undefinedOutputs := by
    simp only [undefinedOutputs, outputKind?_stripped]
    rfl
  unfold validate
  rw [hundefined]
  rfl

theorem matched_validate (d : Document) :
    Matched SameCause Eq d.validate d.stripped.validate := by
  rw [validate_stripped]
  exact .refl SameCause.same _

/-- The document of the run with terminators, and that of the other run. -/
structure DiffersByTerminators (keep strip : Document) : Prop where
  strip_eq : strip = keep.stripped
  terminated : ∀ e ∈ keep.equations, e.IsTerminated

variable {name : Text} {matrixNames : List Text}

theorem matched_build (parameters : ParameterFile) (log : StatementLog) :
    Matched SameCause DiffersByTerminators (build name parameters log.terminated matrixNames)
      (build name parameters log matrixNames) := by
  rw [build, build]
  refine (Classification.matched_ofLog log).bind ?_
  rintro sorted _ ⟨rfl, hsorted⟩
  refine (Matched.refl SameCause.same log.auxCount).bind ?_
  rintro auxCount _ rfl
  refine (matched_validate _).bind ?_
  rintro _ _ -
  exact .ok ⟨rfl, hsorted⟩

theorem matched_ofExport (settings : ExportSettings) (parameterText equationText : Text) :
    Matched SameCause DiffersByTerminators
      (ofExport { settings with terminator := .keep } name parameterText equationText)
      (ofExport { settings with terminator := .strip } name parameterText equationText) := by
  rw [ofExport, ofExport]
  refine (Matched.refl SameCause.same (ParameterFile.ofText settings parameterText)).bind ?_
  rintro parameters _ rfl
  have hcause : ∀ e e' : ExportError, e = e' → SameCause e e' := by
    rintro e _ rfl
    exact .same e
  refine ((matched_ofLines settings equationText.lines).imp hcause fun _ _ h => h).bind ?_
  rintro _ log rfl
  exact matched_build parameters log

end Document

end MotionExport
