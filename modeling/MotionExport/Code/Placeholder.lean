import MotionExport.Text.Basic

/-! # Placeholders

The names of the slots that the template of a generated module may use.
-/

namespace MotionExport

inductive Placeholder where
  | name
  | integrationOptions
  | parameters
  | stateNames
  | initialConditions
  | inputNames
  | outputNames
  | auxCount
  | constants
  | parameterBindings
  | stateBindings
  | inputBindings
  | motion
  | derivativeVector
  | inputs
  | steadyAuxiliaries
  | dependents
  | outputs
  | outputVector
  | linear
  deriving DecidableEq

namespace Placeholder

def all : List Placeholder :=
  [name, integrationOptions, parameters, stateNames, initialConditions, inputNames, outputNames,
    auxCount, constants, parameterBindings, stateBindings, inputBindings, motion,
    derivativeVector, inputs, steadyAuxiliaries, dependents, outputs, outputVector, linear]

theorem mem_all (p : Placeholder) : p ∈ all := by cases p <;> decide

/-- The key that names the placeholder in a template. -/
def key : Placeholder → Text
  | name => "name".toList
  | integrationOptions => "intOpts".toList
  | parameters => "parameters".toList
  | stateNames => "stateNames".toList
  | initialConditions => "initialConditions".toList
  | inputNames => "inputNames".toList
  | outputNames => "outputNames".toList
  | auxCount => "numZees".toList
  | constants => "constants".toList
  | parameterBindings => "extractParameters".toList
  | stateBindings => "extractStates".toList
  | inputBindings => "extractInputs".toList
  | motion => "eom".toList
  | derivativeVector => "storeDerivatives".toList
  | inputs => "inputs".toList
  | steadyAuxiliaries => "stateAux".toList
  | dependents => "dependent".toList
  | outputs => "outputs".toList
  | outputVector => "storeOutputs".toList
  | linear => "linear".toList

end Placeholder

end MotionExport
