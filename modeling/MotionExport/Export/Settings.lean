import MotionExport.Text.Basic

/-! # Export settings

What a reader of export files may choose: the names of the matrices of the linear model, whether
statements keep their terminator, and how many lines of header each file has.
-/

namespace MotionExport

/-- Whether an assembled statement keeps its final semicolon. -/
inductive Terminator where
  | keep
  | strip
  deriving DecidableEq

namespace Terminator

def finish : Terminator → Text → Text
  | keep, statement => statement
  | strip, statement => statement.dropLast

end Terminator

/-- The state, input, output and feed-forward matrices, unless other names are given. -/
def defaultMatrixNames : List Text := ["A".toList, "B".toList, "C".toList, "D".toList]

structure ExportSettings where
  matrixNames : List Text := defaultMatrixNames
  terminator : Terminator := .strip
  parameterHeader : Nat := 6
  equationHeader : Nat := 20

/-- The first of the matrix names that the left side `lhs` indexes into: it starts with the name
and an opening bracket. -/
def indexedMatrix? (names : List Text) (lhs : Text) : Option Text :=
  names.find? fun name => lhs.startsWith (name ++ ['['])

end MotionExport
