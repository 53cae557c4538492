import MotionExport.Number.Binary64
import MotionExport.Text.Basic

/-! # Integration options

The five settings of the numerical integration, with the keyword that introduces each of them in a
parameter file and the short key that stands for it in reports and generated modules.
-/

namespace MotionExport

inductive IntegrationOption where
  | initialTime
  | finalTime
  | stepSize
  | absoluteError
  | relativeError
  deriving DecidableEq

namespace IntegrationOption

/-- All options, in the order in which they are listed and required. -/
def all : List IntegrationOption :=
  [initialTime, finalTime, stepSize, absoluteError, relativeError]

def keyword : IntegrationOption → Text
  | initialTime => "TINITIAL".toList
  | finalTime => "TFINAL".toList
  | stepSize => "INTEGSTP".toList
  | absoluteError => "ABSERR".toList
  | relativeError => "RELERR".toList

/-- The position of the value among the words of that line. The tolerances have no units. -/
def valuePosition : IntegrationOption → Nat
  | absoluteError | relativeError => 4
  | _ => 5

def key : IntegrationOption → Text
  | initialTime => "ti".toList
  | finalTime => "tf".toList
  | stepSize => "ts".toList
  | absoluteError => "abserr".toList
  | relativeError => "relerr".toList

def fieldName : IntegrationOption → Text
  | initialTime => "initial_time".toList
  | finalTime => "final_time".toList
  | stepSize => "step_size".toList
  | absoluteError => "absolute_error".toList
  | relativeError => "relative_error".toList

end IntegrationOption

structure IntegrationOptions where
  initialTime : Binary64
  finalTime : Binary64
  stepSize : Binary64
  absoluteError : Binary64
  relativeError : Binary64
  deriving DecidableEq, Inhabited

namespace IntegrationOptions

def value (o : IntegrationOptions) : IntegrationOption → Binary64
  | .initialTime => o.initialTime
  | .finalTime => o.finalTime
  | .stepSize => o.stepSize
  | .absoluteError => o.absoluteError
  | .relativeError => o.relativeError

def entries (o : IntegrationOptions) : List (Text × Binary64) :=
  IntegrationOption.all.map fun k => (k.key, o.value k)

end IntegrationOptions

end MotionExport
