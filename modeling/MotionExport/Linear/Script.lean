import MotionExport.Export.Settings
import MotionExport.Model.Document

/-! # Linearization scripts

The commands that ask for the entries of the linear model's matrices. The first two matrices
differentiate the rates of the states, the others the outputs, by states and by inputs in turn.
-/

namespace MotionExport

/-- A holonomic constraint, and the coordinate that it is solved for. -/
structure HolonomicConstraint where
  dependent : Text
  constraint : Text
  deriving DecidableEq

structure JacobianScript where
  /-- The names of the state, input, output and feed-forward matrices. -/
  matrices : Text × Text × Text × Text := (['A'], ['B'], ['C'], ['D'])
  states : List Text
  inputs : List Text
  outputs : List Text
  holonomic : Option HolonomicConstraint := none
  deriving DecidableEq

namespace JacobianScript

/-- The command for one entry: the derivative of `row` by `column`, where the constraint adds what
comes through its dependent coordinate. -/
def entryLine (holonomic : Option HolonomicConstraint) (matrix : Text) (i j : Nat)
    (row column : Text) : Text :=
  let derivative (f x : Text) : Text := "d(".toList ++ f ++ ", ".toList ++ x ++ [')']
  matrix ++ ['['] ++ numeral i ++ ", ".toList ++ numeral j ++ "] = ".toList
    ++ derivative row column ++
    match holonomic with
    | none => []
    | some h =>
      " + ".toList ++ derivative row h.dependent ++ " * ".toList ++ derivative h.constraint column
        ++ " / ".toList ++ derivative h.constraint h.dependent

/-- The lines of a matrix, row by row, with a blank line behind each row. A matrix without columns
has no lines. -/
def matrixLines (holonomic : Option HolonomicConstraint) (matrix : Text)
    (rows columns : List Text) : List Text :=
  if columns = [] then []
  else
    (rows.zipIdx 1).flatMap fun (row, i) =>
      ((columns.zipIdx 1).map fun (column, j) => entryLine holonomic matrix i j row column) ++ [[]]

def rates (s : JacobianScript) : List Text := s.states.map (· ++ ['\x27'])

def lines (s : JacobianScript) : List Text :=
  let (a, b, c, d) := s.matrices
  matrixLines s.holonomic a s.rates s.states ++ matrixLines s.holonomic b s.rates s.inputs
    ++ matrixLines s.holonomic c s.outputs s.states ++ matrixLines s.holonomic d s.outputs s.inputs

def render (s : JacobianScript) : Text :=
  let (a, b, c, d) := s.matrices
  s.lines.flatMap (· ++ ['\n']) ++ "encode ".toList ++ ", ".toList.intercalate [a, b, c, d]

end JacobianScript

namespace Document

def jacobianScript (d : Document) : JacobianScript :=
  { states := d.stateNames, inputs := d.inputNames, outputs := d.outputNames }

end Document

end MotionExport
