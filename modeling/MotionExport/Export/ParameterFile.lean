import MotionExport.Export.Error
import MotionExport.Export.Lines
import MotionExport.Model.Quantity
import MotionExport.Number.Decimal

/-! # Parameter files

A parameter file lists constants, initial values of states and integration options, one to a line:

    Constant       g        m/s^2   =  9.81
    Initial Value  theta    UNITS   =  0.0
    Initial Time   TINITIAL s       =  0.0
    Absolute Error ABSERR           =  1.0E-08

Lines of any other form are passed over, and reading ends with the relative error.
-/

namespace MotionExport

structure ParameterFile where
  integration : IntegrationOptions
  parameters : List Quantity
  states : List Quantity
  deriving DecidableEq

namespace ParameterFile

inductive LineKind where
  | parameter
  | state
  | option (option : IntegrationOption)
  | other
  deriving DecidableEq

/-- Recognises a line by its first three words. -/
def LineKind.ofWords (words : List Text) : LineKind :=
  if words[0]? = some "Constant".toList then .parameter
  else if words[0]? = some "Initial".toList ∧ words[1]? = some "Value".toList then .state
  else
    match IntegrationOption.all.find? fun o => words[2]? = some o.keyword with
    | some o => .option o
    | none => .other

variable (words : List Text) (line : Nat)

def wordAt (i : Nat) : Except ExportError Text :=
  match words[i]? with
  | some word => .ok word
  | none => .error (.malformedLine line (.missingWord (i + 1)))

/-- Reads a number whose exponent may also be marked by `D` or `d`. -/
def number? (word : Text) : Option Binary64 :=
  match Binary64.parse? word with
  | some x => some x
  | none => Binary64.parse? (word.map fun c => if c = 'D' ∨ c = 'd' then 'E' else c)

def numberAt (i : Nat) : Except ExportError Binary64 := do
  let word ← wordAt words line i
  match number? word with
  | some x => .ok x
  | none => .error (.malformedLine line (.notNumber word))

/-- The units of a line; `UNITS` stands for none given. -/
def unitsAt (i : Nat) : Option Text :=
  words[i]?.filter fun word => word ≠ "UNITS".toList ∧ word ≠ ['=']

/-- What has been read so far, with the newest option setting first. -/
structure Draft where
  parameters : List Quantity := []
  states : List Quantity := []
  options : List (IntegrationOption × Binary64) := []

namespace Draft

def names (d : Draft) : List Text := d.parameters.map (·.name) ++ d.states.map (·.name)

def newName (d : Draft) (i : Nat) : Except ExportError Text := do
  let name ← wordAt words line i
  if d.names.contains name then .error (.malformedLine line (.repeatedName name)) else .ok name

def add (d : Draft) : LineKind → Except ExportError Draft
  | .parameter => do
    let name ← d.newName words line 1
    let value ← numberAt words line 4
    .ok { d with parameters := d.parameters ++ [⟨name, value, unitsAt words 2⟩] }
  | .state => do
    let name ← d.newName words line 2
    let value ← numberAt words line 5
    .ok { d with states := d.states ++ [⟨name, value, unitsAt words 3⟩] }
  | .option o => do
    let value ← numberAt words line o.valuePosition
    .ok { d with options := (o, value) :: d.options }
  | .other => .ok d

def option (d : Draft) (o : IntegrationOption) : Except ExportError Binary64 :=
  match d.options.find? fun setting => setting.1 = o with
  | some setting => .ok setting.2
  | none => .error (.optionNotSet o)

def integration (d : Draft) : Except ExportError IntegrationOptions := do
  let initialTime ← d.option .initialTime
  let finalTime ← d.option .finalTime
  let stepSize ← d.option .stepSize
  let absoluteError ← d.option .absoluteError
  let relativeError ← d.option .relativeError
  .ok { initialTime, finalTime, stepSize, absoluteError, relativeError }

end Draft

/-- Takes in the lines up to the first one that sets the relative error. -/
def scan (d : Draft) : List Line → Except ExportError Draft
  | [] => .ok d
  | line :: rest => do
    let words := line.text.words
    let kind := LineKind.ofWords words
    let d ← d.add words line.number kind
    if kind = .option .relativeError then .ok d else scan d rest

def ofLines (settings : ExportSettings) (lines : List Text) : Except ExportError ParameterFile :=
  if lines.length < settings.parameterHeader then
    .error (.malformedLine lines.length (.headerTooShort settings.parameterHeader))
  else do
    let body := (Line.numbered 1 lines).drop settings.parameterHeader
    let d ← scan {} body
    let integration ← d.integration
    .ok { integration, parameters := d.parameters, states := d.states }

def ofText (settings : ExportSettings) (t : Text) : Except ExportError ParameterFile :=
  ofLines settings t.lines

def stateNames (p : ParameterFile) : List Text := p.states.map (·.name)

end ParameterFile

end MotionExport
