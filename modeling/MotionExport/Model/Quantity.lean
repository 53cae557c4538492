import MotionExport.Number.Binary64
import MotionExport.Text.Basic

/-! # Quantities

A named value with its units, if it has any. The parameters of a model with their defaults and its
states with their initial values are quantities.
-/

namespace MotionExport

structure Quantity where
  name : Text
  value : Binary64
  units : Option Text
  deriving DecidableEq

end MotionExport
