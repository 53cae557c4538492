import MotionExport.Number.Binary64

/-! # Linear models

The matrices of a model that is linear around a state: how the rates of the states and the outputs
depend on the states and on the inputs.
-/

namespace MotionExport

/-- State, input, output and feed-forward matrix, each as a list of rows. -/
structure LinearModel where
  a : List (List Binary64)
  b : List (List Binary64)
  c : List (List Binary64)
  d : List (List Binary64)
  deriving DecidableEq

namespace LinearModel

def zeroMatrix (rows columns : Nat) : List (List Binary64) :=
  List.replicate rows (List.replicate columns .zero)

def zeros (states inputs outputs : Nat) : LinearModel where
  a := zeroMatrix states states
  b := zeroMatrix states inputs
  c := zeroMatrix outputs states
  d := zeroMatrix outputs inputs

/-- The numbers of states, inputs and outputs, as far as the shapes of the matrices tell them. -/
def dimensions (m : LinearModel) : Nat × Nat × Nat :=
  (m.a.length, (m.b.head?.map List.length).getD 0, m.c.length)

end LinearModel

end MotionExport
