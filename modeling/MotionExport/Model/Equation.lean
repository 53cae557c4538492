import MotionExport.Export.Error
import MotionExport.Export.Lines

/-! # Equations

An equation assigns the value of an expression to a name. The expression stays text, and keeps the
terminator of its statement where that was kept.
-/

namespace MotionExport

structure Equation where
  lhs : Text
  rhs : Text
  deriving DecidableEq

namespace Equation

/-- Cuts a statement at its first equals sign. -/
def parse (statement : Text) (line : Nat) : Except ExportError Equation :=
  match Text.splitOnce ['='] statement with
  | none => .error (.malformedLine line (.noAssignment statement))
  | some (lhs, rhs) =>
    if lhs.trim = [] then .error (.malformedLine line .noLeftSide)
    else .ok ⟨lhs.trim, rhs.trim⟩

/-- The left side is an element of the array of auxiliary variables. -/
def isAuxiliary (e : Equation) : Bool := e.lhs.startsWith "z[".toList

/-- The right side without its terminator. -/
def expression (e : Equation) : Text :=
  ((Text.before? [';'] e.rhs).getD e.rhs).trimEnd

def toText (e : Equation) : Text := e.lhs ++ " = ".toList ++ e.expression

end Equation

end MotionExport
