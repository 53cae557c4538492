import MotionExport.Artifact.Error
import MotionExport.Model.Document
import MotionExport.Number.Style

/-! # Reports

A report is a sequence of sections. A section has its name in brackets on a line of its own, an
entry to a line below, and ends with a blank line:

    [States]
    omega = 0.0, rad/s
    theta = 0.0, rad
-/

namespace MotionExport

inductive ReportSection where
  | name
  | integration
  | parameters
  | states
  | constants
  | inputs
  | motion
  | dependents
  | outputNames
  | outputs
  | linear
  deriving DecidableEq

namespace ReportSection

def all : List ReportSection :=
  [name, integration, parameters, states, constants, inputs, motion, dependents, outputNames,
    outputs, linear]

def title : ReportSection → Text
  | name => "Name".toList
  | integration => "Integration Options".toList
  | parameters => "Parameters".toList
  | states => "States".toList
  | constants => "Constants".toList
  | inputs => "Inputs".toList
  | motion => "Equations of Motion".toList
  | dependents => "Dependent Variables".toList
  | outputNames => "Output Names".toList
  | outputs => "Outputs".toList
  | linear => "Linear".toList

end ReportSection

namespace Quantity

/-- `name = value`, and the units behind a comma. -/
def toText (q : Quantity) : Text :=
  q.name ++ " = ".toList ++ NumberStyle.plain.write q.value ++
    match q.units with
    | some units => ", ".toList ++ units
    | none => []

/-- Reads the text of a quantity. The name ends at the first spaced equals sign, the value at the
first comma with a space behind it. -/
def parse (line : Text) : Except ArtifactError Quantity :=
  match Text.splitOnce " = ".toList line with
  | none => .error (.notAnEntry line)
  | some (name, rest) =>
    let (value, units) := match Text.splitOnce ", ".toList rest with
      | some (value, units) => (value, some units)
      | none => (rest, none)
    match Binary64.parse? value.trim with
    | some x => .ok ⟨name.trim, x, units⟩
    | none => .error (.notAnEntry line)

end Quantity

namespace Document

def reportLines (d : Document) : ReportSection → List Text
  | .name => [d.name]
  | .integration => d.integration.entries.map fun (key, x) => (Quantity.mk key x none).toText
  | .parameters => d.parameters.map Quantity.toText
  | .states => d.states.map Quantity.toText
  | .constants => d.constants.map Equation.toText
  | .inputs => d.inputs.map Equation.toText
  | .motion => d.motion.map Equation.toText
  | .dependents => d.dependents.map Equation.toText
  | .outputNames => d.outputNames
  | .outputs => d.outputs.map Equation.toText
  | .linear => d.linear.map Equation.toText

def report (d : Document) : Text :=
  ReportSection.all.flatMap fun s =>
    ['['] ++ s.title ++ "]\n".toList ++ (d.reportLines s).flatMap (· ++ ['\n']) ++ ['\n']

end Document

/-- A report that has been read: the names of its sections with their lines. -/
structure Report where
  sections : List (Text × List Text)
  deriving DecidableEq

namespace Report

def header? (line : Text) : Option Text := (Text.after? ['['] line).bind (Text.before? [']'])

/-- Sorts trimmed lines into sections. The first component holds the lines before the first
header. -/
def collect : List Text → List Text × List (Text × List Text)
  | [] => ([], [])
  | line :: rest =>
    let (front, sections) := collect rest
    match header? line with
    | some name => ([], (name, front) :: sections)
    | none => if line = [] then (front, sections) else (line :: front, sections)

/-- Reads a report. Blank lines and the lines before the first header do not count. -/
def ofText (t : Text) : Report := ⟨(collect (t.lines.map Text.trim)).2⟩

def sectionNames (r : Report) : List Text := r.sections.map (·.1)

/-- The lines of the first section of a name. -/
def lines? (r : Report) (name : Text) : Option (List Text) := Text.lookup? name r.sections

def entries (r : Report) (name : Text) : Except ArtifactError (List Quantity) :=
  ((r.lines? name).getD []).mapM Quantity.parse

def states (r : Report) : Except ArtifactError (List (Text × Binary64)) := do
  let entries ← r.entries ReportSection.states.title
  .ok (entries.map fun e => (e.name, e.value))

end Report

end MotionExport
