import MotionExport.Export.Error

/-! # Statement logs

The record of an equations file: the declared names, the names of the outputs, and every statement
with the section it stands in and the line it starts on.
-/

namespace MotionExport

/-- The parts of an equations file whose statements are recorded. -/
inductive FileSection where
  | constants
  | motion
  | specified
  | writeOutput
  | evaluateOutput
  deriving DecidableEq

structure LoggedStatement where
  origin : FileSection
  statement : Text
  line : Nat
  deriving DecidableEq

structure StatementLog where
  /-- The declared names, an array with its size. -/
  globals : List Text := []
  outputNames : List Text := []
  statements : List LoggedStatement := []
  deriving DecidableEq

namespace StatementLog

def inSection (log : StatementLog) (s : FileSection) : List LoggedStatement :=
  log.statements.filter fun e => e.origin = s

def dropAuxOpenings : Text → Text
  | 'z' :: '[' :: t => dropAuxOpenings t
  | t => t

/-- The size in the declaration of the auxiliary array. -/
def declaredSize? (declaration : Text) : Option Nat :=
  count? ((dropAuxOpenings declaration).dropEndWhile (· = ']'))

/-- The declared size of the auxiliary array, zero when it is not declared. -/
def auxCount (log : StatementLog) : Except ExportError Nat :=
  match log.globals.find? fun name => name.startsWith "z[".toList with
  | none => .ok 0
  | some declaration =>
    match declaredSize? declaration with
    | some n => .ok n
    | none => .error (.unreadableAuxSize declaration)

end StatementLog

end MotionExport
