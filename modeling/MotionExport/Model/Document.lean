import MotionExport.Model.Equation
import MotionExport.Model.Quantity

/-! # Model documents

Everything known about a model: its integration settings, parameters and states, and the equations
sorted by what they are for.
-/

namespace MotionExport

inductive OutputKind where
  | state
  | dependent
  | nonState
  deriving DecidableEq

structure Document where
  name : Text
  integration : IntegrationOptions
  /-- The constants of the model with their default values. -/
  parameters : List Quantity
  /-- The states with their initial values. -/
  states : List Quantity
  /-- The names declared in the equations file. -/
  globals : List Text
  /-- The size of the array of auxiliary variables. -/
  auxCount : Nat
  constants : List Equation
  motion : List Equation
  /-- The equations of the specified inputs; their left sides are the input names. -/
  inputs : List Equation
  /-- The equations of motion whose left side is also an output. -/
  dependents : List Equation
  outputNames : List Text
  outputs : List Equation
  /-- The entries of the linear model's matrices and what they are computed from. -/
  linear : List Equation
  deriving DecidableEq

namespace Document

def stateNames (d : Document) : List Text := d.states.map (·.name)

def initialConditions (d : Document) : List Binary64 := d.states.map (·.value)

def parameterNames (d : Document) : List Text := d.parameters.map (·.name)

def inputNames (d : Document) : List Text := d.inputs.map (·.lhs)

/-- The equations of motion whose left side starts with the name of a state. -/
def kinematicEquations (d : Document) : List Equation :=
  d.motion.filter fun e => d.stateNames.any fun name => e.lhs.startsWith name

/-- How the output `name` is produced; none when nothing defines it. -/
def outputKind? (d : Document) (name : Text) : Option OutputKind :=
  if name ∈ d.stateNames then some .state
  else if name ∈ d.dependents.map (·.lhs) then some .dependent
  else if name ∈ d.outputs.map (·.lhs) then some .nonState
  else none

def firstRepeated? : List Text → List Text → Option Text
  | _, [] => none
  | seen, name :: names =>
    if name ∈ seen then some name else firstRepeated? (name :: seen) names

def undefinedOutputs (d : Document) : List Text :=
  d.outputNames.filter fun name => (d.outputKind? name).isNone

/-- Parameters and states must have names of their own, and every output a definition. -/
def validate (d : Document) : Except ExportError Unit :=
  match firstRepeated? [] (d.parameterNames ++ d.stateNames) with
  | some name => .error (.sharedName name)
  | none =>
    match d.undefinedOutputs with
    | [] => .ok ()
    | names => .error (.unresolvedOutputs (.undefined names))

end Document

end MotionExport
