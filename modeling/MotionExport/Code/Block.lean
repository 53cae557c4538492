import MotionExport.Code.Language
import MotionExport.Model.Document

/-! # Equation blocks

The equations of one collection as the statements of a method body. Auxiliary variables live in the
owner, matrix entries in the matrices of the linear model, and an indexed target needs a local
array that is declared before all statements.
-/

namespace MotionExport

namespace Code

/-- What a block computes. Constants read parameters from the owner's map and store what they
define there. -/
inductive BlockKind where
  | constants
  | plain
  | linear
  deriving DecidableEq

structure Context where
  language : Language
  matrixNames : List Text
  /-- The names that are kept in the owner's parameter map. -/
  lookup : List Text

def indented (lines : List Text) : Text :=
  ['\n'].intercalate (lines.map fun line => List.replicate 8 ' ' ++ line)

namespace Context

variable (c : Context)

def retargeted (t : Text) : Text :=
  Expression.retargetMatrices c.matrixNames c.language.matrixTargets c.language.indexStyle t

/-- The right side of an equation with every rewriting that its block needs. -/
def expression (kind : BlockKind) (e : Equation) : Text :=
  let rhs := match c.language with
    | .rust => Expression.widenLiterals e.expression
    | .python => e.expression
  let rhs := Expression.scopeAuxiliaries rhs
  match kind with
  | .constants => Expression.lookUpParameters c.lookup c.language.quote rhs
  | .plain => rhs
  | .linear => c.retargeted rhs

def isMatrixEntry (e : Equation) : Bool := (indexedMatrix? c.matrixNames e.lhs).isSome

def statement (kind : BlockKind) (e : Equation) : List Text :=
  let rhs := c.expression kind e
  if e.isAuxiliary then [c.language.assignment (Expression.scopeAuxiliaries e.lhs) rhs]
  else if kind = .linear ∧ c.isMatrixEntry e then
    [c.language.assignment (c.retargeted e.lhs) rhs]
  else if (Expression.elementTarget? e.lhs).isSome then [c.language.assignment e.lhs rhs]
  else
    match kind, c.language with
    | .constants, .rust =>
      [c.language.binding e.lhs rhs,
        "self.parameters.insert(".toList ++ c.language.quoted e.lhs ++ ".to_string(), ".toList
          ++ e.lhs ++ ");".toList]
    | .constants, .python => [c.language.assignment (c.language.parameterEntry e.lhs) rhs]
    | _, _ => [c.language.binding e.lhs rhs]

/-- The base and the index of an equation that assigns to an element of a local array. -/
def localElement? (e : Equation) : Option (Text × Nat) :=
  if e.isAuxiliary || c.isMatrixEntry e then none else Expression.elementTarget? e.lhs

/-- Makes the array `name` at least `length` long. -/
def growArray (name : Text) (length : Nat) : List (Text × Nat) → List (Text × Nat)
  | [] => [(name, length)]
  | (other, n) :: rest =>
    if other = name then (other, max n length) :: rest else (other, n) :: growArray name length rest

/-- The local arrays of a block in the order of their first use, each long enough for all its
assigned elements. -/
def localArrays (equations : List Equation) : List (Text × Nat) :=
  (equations.filterMap c.localElement?).foldl
    (fun arrays (name, index) => growArray name (index + 1) arrays) []

def blockLines (kind : BlockKind) (equations : List Equation) : List Text :=
  (c.localArrays equations).map (fun (name, length) => c.language.arrayDeclaration name length)
    ++ equations.flatMap (c.statement kind)

def block (kind : BlockKind) (equations : List Equation) : Text :=
  indented (c.blockLines kind equations)

end Context

end Code

end MotionExport
