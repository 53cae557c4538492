import MotionExport.Export.Declarations
import MotionExport.Export.StatementLog

/-! # Equation files

An equations file is a program text whose sections are found by marker lines. Every section is
looked for from the top of the file, so their order in the file does not matter.
-/

namespace MotionExport

namespace EquationFile

def behind (m : Marker) (lines : List Line) : Except ExportError (List Line) :=
  match lines.dropWhile fun l => !m.isOn l.trimmed with
  | [] => .error (.markerNotFound m.text)
  | _ :: rest => .ok rest

variable (mode : Terminator)

/-- The statement that starts on `line`, and the number of further lines it takes. -/
def statementAt (line : Line) (rest : List Line) : Except ExportError (Text × Nat) :=
  match gatherStatement line.text (rest.map (·.text)) with
  | none => .error (.unfinishedStatement line.number)
  | some (statement, used) => .ok (mode.finish statement, used)

/-- The statements up to the first blank line, all of the section `s`. -/
def block (s : FileSection) : List Line → Except ExportError (List LoggedStatement)
  | [] => .ok []
  | line :: rest =>
    if line.trimmed = [] then .ok []
    else do
      let (statement, used) ← statementAt mode line rest
      let statements ← block s (rest.drop used)
      .ok (⟨s, statement, line.number⟩ :: statements)
termination_by lines => lines.length
decreasing_by grind

/-- The statements up to the end of the dynamics. A marker line opens a part with specified inputs,
and a blank line closes it. -/
def dynamics (specified : Bool) : List Line → Except ExportError (List LoggedStatement)
  | [] => .error (.markerNotFound Marker.beforeStep.text)
  | line :: rest =>
    if Marker.beforeStep.isOn line.trimmed then .ok []
    else if line.trimmed = [] then dynamics false rest
    else if Marker.opensSpecified line.trimmed then dynamics true rest
    else do
      let (statement, used) ← statementAt mode line rest
      let statements ← dynamics specified (rest.drop used)
      .ok (⟨if specified then .specified else .motion, statement, line.number⟩ :: statements)
termination_by lines => lines.length
decreasing_by all_goals grind

def dynamicsAfterBlank (lines : List Line) : Except ExportError (List LoggedStatement) :=
  match lines.dropWhile fun l => l.trimmed ≠ [] with
  | [] => .error (.markerNotFound Marker.beforeStep.text)
  | _ :: rest => dynamics mode false rest

def writing : Text := "writef".toList

def writingOutputs : Text := "writef(Fptr[".toList

/-- The outputs that a write statement names: its fields from the third to the last but one. -/
def writtenNames (statement : Text) : List Text :=
  let fields := statement.splitOn ','
  (((fields.take (fields.length - 1)).drop 2).map Text.trim).filter (· ≠ [])

/-- The write block up to its first blank line: the names of the outputs, and the statements that
are no write statements. -/
def writeBlock : List Line → Except ExportError (List Text × List LoggedStatement)
  | [] => .ok ([], [])
  | line :: rest =>
    if line.trimmed = [] then .ok ([], [])
    else do
      let (statement, used) ← statementAt mode line rest
      let (names, statements) ← writeBlock (rest.drop used)
      if line.trimmed.startsWith writingOutputs then
        .ok (writtenNames statement ++ names, statements)
      else if line.trimmed.startsWith writing then .ok (names, statements)
      else .ok (names, ⟨.writeOutput, statement, line.number⟩ :: statements)
termination_by lines => lines.length
decreasing_by grind

end EquationFile

namespace StatementLog

open EquationFile

def ofLines (settings : ExportSettings) (lines : List Text) : Except ExportError StatementLog :=
  if lines.length < settings.equationHeader then
    .error (.malformedLine lines.length (.headerTooShort settings.equationHeader))
  else do
    let mode := settings.terminator
    let all := Line.numbered 1 lines
    let globals ← Declarations.globals (all.drop settings.equationHeader)
    let constants ← block mode .constants (← behind .constants all)
    let dynamics ← dynamicsAfterBlank mode (← behind .afterStep all)
    let (outputNames, written) ← writeBlock mode (← behind .writeOutput all)
    let evaluated ← block mode .evaluateOutput (← behind .evaluateOutput all)
    .ok { globals, outputNames, statements := constants ++ dynamics ++ written ++ evaluated }

def ofText (settings : ExportSettings) (t : Text) : Except ExportError StatementLog :=
  ofLines settings t.lines

end StatementLog

end MotionExport
