import MotionExport.Export.Classification
import MotionExport.Export.EquationFile
import MotionExport.Export.ParameterFile
import MotionExport.Model.Document

/-! # Assembly

A parameter file and an equation log make a model document.
-/

namespace MotionExport

namespace Document

/-- The validated document of a parameter file and an equation log. -/
def build (name : Text) (parameters : ParameterFile) (log : StatementLog)
    (matrixNames : List Text) : Except ExportError Document := do
  let sorted ← Classification.ofLog log parameters.stateNames matrixNames
  let auxCount ← log.auxCount
  let document : Document := {
    name
    integration := parameters.integration
    parameters := parameters.parameters
    states := parameters.states
    globals := log.globals
    auxCount
    constants := sorted.constants
    motion := sorted.motion
    inputs := sorted.inputs
    dependents := sorted.dependents
    outputNames := log.outputNames
    outputs := sorted.outputs
    linear := sorted.linear }
  document.validate
  .ok document

def ofExport (settings : ExportSettings) (name parameterText equationText : Text) :
    Except ExportError Document := do
  let parameters ← ParameterFile.ofText settings parameterText
  let log ← StatementLog.ofText settings equationText
  build name parameters log settings.matrixNames

end Document

end MotionExport
