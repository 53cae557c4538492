import MotionExport.Artifact.Template
import MotionExport.Code.Block
import MotionExport.Code.Dependence
import MotionExport.Code.Placeholder

/-! # Generated modules

The text that each placeholder stands for in the module generated from a document.
-/

namespace MotionExport

namespace Code

/-- Pairs in the order of their names; pairs of one name keep their order. -/
def sortedByName (entries : List (Text × Binary64)) : List (Text × Binary64) :=
  entries.mergeSort fun a b => decide (List.le a.1 b.1)

def integrationOptions (lang : Language) (o : IntegrationOptions) : Text :=
  match lang with
  | .rust =>
    ['\n'].intercalate (IntegrationOption.all.map fun k =>
      List.replicate 12 ' ' ++ k.fieldName ++ ": ".toList ++ Language.number (o.value k) ++ [','])
  | .python => lang.dictionary (sortedByName o.entries)

def parameterLiteral (lang : Language) (parameters : List Quantity) : Text :=
  let entries := sortedByName (parameters.map fun p => (p.name, p.value))
  match lang with
  | .rust =>
    ['\n'].intercalate (entries.map fun (name, x) =>
      List.replicate 8 ' ' ++ ['('] ++ lang.quoted name ++ ".to_string(), ".toList
        ++ Language.number x ++ "),".toList)
  | .python => lang.dictionary entries

/-- Binds each name to the entry of its place in a vector, counted from zero. -/
def vectorBindings (lang : Language) (vector : Text) (names : List Text) : List Text :=
  names.zipIdx.map fun (name, i) => lang.binding name (vector ++ ['['] ++ numeral i ++ [']'])

def parameterBindings (lang : Language) (names : List Text) : Text :=
  indented (names.map fun name => lang.binding name (lang.parameterEntry name))

def stateBindings (lang : Language) (names : List Text) : Text :=
  indented (vectorBindings lang ['x'] names)

def inputBindings (lang : Language) (names : List Text) : Text :=
  indented (lang.binding ['u'] "self.inputs(t)".toList :: vectorBindings lang ['u'] names)

def inputAssignments (c : Context) (inputs : List Equation) : Text :=
  indented (inputs.zipIdx.map fun (e, i) =>
    c.language.assignment ("u[".toList ++ numeral i ++ [']']) (c.expression .plain e))

def context (lang : Language) (matrixNames : List Text) (d : Document) : Context :=
  ⟨lang, matrixNames, d.mappedNames⟩

/-- The text of a placeholder in the module generated from a document. -/
def value (lang : Language) (matrixNames : List Text) (d : Document) : Placeholder → Text :=
  let c := context lang matrixNames d
  fun
  | .name => d.name
  | .integrationOptions => integrationOptions lang d.integration
  | .parameters => parameterLiteral lang d.parameters
  | .stateNames => lang.stringList d.stateNames
  | .initialConditions => lang.numberList d.initialConditions
  | .inputNames => lang.stringList d.inputNames
  | .outputNames => lang.stringList d.outputNames
  | .auxCount => numeral d.auxCount
  | .constants => c.block .constants d.constants
  | .parameterBindings => parameterBindings lang d.mappedNames
  | .stateBindings => stateBindings lang d.stateNames
  | .inputBindings => inputBindings lang d.inputNames
  | .motion => c.block .plain d.motion
  | .derivativeVector => lang.vector (d.stateNames.map (· ++ ['p']))
  | .inputs => inputAssignments c d.inputs
  | .steadyAuxiliaries => c.block .plain d.steadyAuxiliaries
  | .dependents => c.block .plain d.dependents
  | .outputs => c.block .plain d.outputs
  | .outputVector => lang.vector d.outputNames
  | .linear => c.block .linear d.linear

def values (lang : Language) (matrixNames : List Text) (d : Document) : List (Text × Text) :=
  Placeholder.all.map fun p => (p.key, value lang matrixNames d p)

def render (lang : Language) (template : Template) (matrixNames : List Text) (d : Document) :
    Except ArtifactError Text :=
  template.fill (values lang matrixNames d)

end Code

end MotionExport
