import MotionExport.Expression.Name
import MotionExport.Model.Document

/-! # Dependence of names

Which auxiliary variables depend on the state alone, so that the outputs can compute them without
time and inputs, and which names a generated module keeps in its parameter map.
-/

namespace MotionExport

namespace Equation

def reads (e : Equation) : List Text := Expression.namesRead e.expression

end Equation

namespace Document

/-- The auxiliary equations that read no name in `varying` and none that an earlier equation left
out defines. -/
def steadyAmong (varying : List Text) : List Equation → List Equation
  | [] => []
  | e :: es =>
    if e.isAuxiliary && !e.reads.any varying.contains then e :: steadyAmong varying es
    else steadyAmong (varying ++ [e.lhs]) es

/-- The auxiliary equations of motion that depend neither on time nor on an input. -/
def steadyAuxiliaries (d : Document) : List Equation :=
  steadyAmong (d.inputNames ++ [['T']]) d.motion

def addDefined (names : List Text) : List Equation → List Text
  | [] => names
  | e :: es =>
    if e.isAuxiliary || (Expression.elementTarget? e.lhs).isSome || names.contains e.lhs then
      addDefined names es
    else addDefined (names ++ [e.lhs]) es

/-- The parameters and the names that the constants define. -/
def mappedNames (d : Document) : List Text := addDefined d.parameterNames d.constants

end Document

end MotionExport
