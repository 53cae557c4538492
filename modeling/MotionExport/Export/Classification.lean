import MotionExport.Export.StatementLog
import MotionExport.Export.Settings
import MotionExport.Model.Equation

/-! # Classification

The equations of a log sorted by what they are for. Constants, equations of motion and specified
inputs follow their section. A matrix entry in an output block belongs to the linear model.
The equations of the evaluation block are outputs until every pending output has been defined; what
comes after feeds the linear model.
-/

namespace MotionExport

structure Classification where
  constants : List Equation
  motion : List Equation
  inputs : List Equation
  dependents : List Equation
  outputs : List Equation
  linear : List Equation
  deriving DecidableEq

namespace Classification

def equationsIn (log : StatementLog) (s : FileSection) : Except ExportError (List Equation) :=
  (log.inSection s).mapM fun e => Equation.parse e.statement e.line

def isMatrixEntry (names : List Text) (e : Equation) : Bool := (indexedMatrix? names e.lhs).isSome

/-- Splits the equations of the evaluation block into outputs and equations of the linear model,
while names are `pending`. The last component is what stays pending. -/
def routeEvaluated (matrixNames : List Text) :
    List Text → List Equation → List Equation × List Equation × List Text
  | pending, [] => ([], [], pending)
  | pending, e :: es =>
    if isMatrixEntry matrixNames e ∨ pending = [] then
      let (outputs, linear, left) := routeEvaluated matrixNames pending es
      (outputs, e :: linear, left)
    else
      let (outputs, linear, left) := routeEvaluated matrixNames (pending.filter (· ≠ e.lhs)) es
      (e :: outputs, linear, left)

/-- The output names that are no state and that none of the equations `defining` defines, each
once. -/
def pendingOutputs (outputNames stateNames : List Text) (defining : List Equation) : List Text :=
  outputNames.eraseDups.filter fun name =>
    !stateNames.contains name && !(defining.map (·.lhs)).contains name

def ofLog (log : StatementLog) (stateNames matrixNames : List Text) :
    Except ExportError Classification := do
  let constants ← equationsIn log .constants
  let motion ← equationsIn log .motion
  let inputs ← equationsIn log .specified
  let written ← equationsIn log .writeOutput
  let evaluated ← equationsIn log .evaluateOutput
  let (writtenLinear, writtenOutputs) := written.partition (isMatrixEntry matrixNames)
  let named := motion.filter (!·.isAuxiliary)
  let pending := pendingOutputs log.outputNames stateNames (named ++ writtenOutputs)
  let (outputs, linear, left) := routeEvaluated matrixNames pending evaluated
  if left ≠ [] then
    .error (.unresolvedOutputs (.missing pending.length (pending.length - left.length) left))
  else
    .ok {
      constants, motion, inputs
      dependents := named.filter fun e => log.outputNames.contains e.lhs
      outputs := writtenOutputs ++ outputs
      linear := linear ++ writtenLinear }

end Classification

end MotionExport
