import MotionExport.Export.Cursor
import MotionExport.Export.EquationFile

/-! # Reading through a cursor

An equations file read line by line. All sections share one cursor: each of them goes to its marker
from the top of the file, and then takes line after line until its end.
-/

namespace MotionExport

namespace Cursor

theorem length_remaining (c : Cursor) : c.remaining.length = c.lines.length - c.position := by
  simp [remaining]

theorem length_remaining_advance_le (c : Cursor) (count : Nat) :
    (c.advance count).remaining.length ≤ c.remaining.length := by
  simp only [length_remaining, advance]
  omega

@[grind →] theorem length_remaining_of_next {c c' : Cursor} {line : Text}
    (h : c.next = (some line, c')) : c'.remaining.length < c.remaining.length := by
  unfold next at h
  split at h
  · simp at h
  · rename_i first rest hr
    obtain ⟨-, rfl⟩ : first = line ∧ c.advance 1 = c' := by simpa using h
    have hl : c.remaining.length = rest.length + 1 := by simp [hr]
    simp only [length_remaining, advance] at hl ⊢
    omega

@[grind →] theorem length_remaining_of_statement {c c' : Cursor} {seed statement : Text}
    {mode : Terminator} (h : c.statement seed mode = .ok (statement, c')) :
    c'.remaining.length ≤ c.remaining.length := by
  unfold Cursor.statement at h
  split at h
  · rename_i used _
    obtain ⟨-, rfl⟩ : _ ∧ c.advance used = c' := by simpa using h
    exact c.length_remaining_advance_le used
  · contradiction

/-- Reads on until the declaration that begins with `start` is complete. -/
def declaration (c : Cursor) (start : Text) : Except ExportError (Text × Cursor) :=
  match gather Declarations.isComplete start c.remaining with
  | some (declaration, used) => .ok (declaration, c.advance used)
  | none => .error (.unfinishedStatement c.exhaust.position)

@[grind →] theorem length_remaining_of_declaration {c c' : Cursor} {start declaration : Text}
    (h : c.declaration start = .ok (declaration, c')) :
    c'.remaining.length ≤ c.remaining.length := by
  unfold Cursor.declaration at h
  split at h
  · rename_i used _
    obtain ⟨-, rfl⟩ : _ ∧ c.advance used = c' := by simpa using h
    exact c.length_remaining_advance_le used
  · contradiction

def globals (c : Cursor) : Except ExportError (List Text × Cursor) :=
  match _ : c.next with
  | (none, _) => .error (.markerNotFound Marker.main.text)
  | (some line, behindLine) =>
    if Marker.main.isOn line.trim then .ok ([], behindLine)
    else
      match Declarations.declaration? line.trim with
      | none => globals behindLine
      | some start =>
        match _ : behindLine.declaration start with
        | .error e => .error e
        | .ok (declaration, behindDeclaration) => do
          let (names, last) ← globals behindDeclaration
          .ok (Declarations.namesOf declaration ++ names, last)
termination_by c.remaining.length
decreasing_by all_goals grind

variable (mode : Terminator)

/-- Reads statements of the section `s` up to a blank line. -/
def block (s : FileSection) (c : Cursor) : Except ExportError (List LoggedStatement × Cursor) :=
  match _ : c.next with
  | (none, last) => .ok ([], last)
  | (some line, behindLine) =>
    if line.trim = [] then .ok ([], behindLine)
    else
      match _ : behindLine.statement line mode with
      | .error e => .error e
      | .ok (statement, behindStatement) => do
        let (statements, last) ← block s behindStatement
        .ok (⟨s, statement, behindLine.position⟩ :: statements, last)
termination_by c.remaining.length
decreasing_by grind

def openDynamics (c : Cursor) : Except ExportError Cursor :=
  match _ : c.next with
  | (none, _) => .error (.markerNotFound Marker.beforeStep.text)
  | (some line, behindLine) => if line.trim = [] then .ok behindLine else openDynamics behindLine
termination_by c.remaining.length
decreasing_by grind

/-- Reads the statements up to the end of the dynamics. -/
def dynamics (specified : Bool) (c : Cursor) :
    Except ExportError (List LoggedStatement × Cursor) :=
  match _ : c.next with
  | (none, _) => .error (.markerNotFound Marker.beforeStep.text)
  | (some line, behindLine) =>
    if Marker.beforeStep.isOn line.trim then .ok ([], behindLine)
    else if line.trim = [] then dynamics false behindLine
    else if Marker.opensSpecified line.trim then dynamics true behindLine
    else
      match _ : behindLine.statement line mode with
      | .error e => .error e
      | .ok (statement, behindStatement) => do
        let (statements, last) ← dynamics specified behindStatement
        .ok (⟨if specified then .specified else .motion, statement, behindLine.position⟩
          :: statements, last)
termination_by c.remaining.length
decreasing_by all_goals grind

def dynamicsAfterBlank (c : Cursor) : Except ExportError (List LoggedStatement × Cursor) := do
  dynamics mode false (← openDynamics c)

def writeBlock (c : Cursor) :
    Except ExportError ((List Text × List LoggedStatement) × Cursor) :=
  match _ : c.next with
  | (none, last) => .ok (([], []), last)
  | (some line, behindLine) =>
    if line.trim = [] then .ok (([], []), behindLine)
    else
      match _ : behindLine.statement line mode with
      | .error e => .error e
      | .ok (statement, behindStatement) => do
        let ((names, statements), last) ← writeBlock behindStatement
        if line.trim.startsWith EquationFile.writingOutputs then
          .ok ((EquationFile.writtenNames statement ++ names, statements), last)
        else if line.trim.startsWith EquationFile.writing then .ok ((names, statements), last)
        else
          .ok ((names, ⟨.writeOutput, statement, behindLine.position⟩ :: statements), last)
termination_by c.remaining.length
decreasing_by grind

def log (settings : ExportSettings) (c : Cursor) : Except ExportError StatementLog := do
  let mode := settings.terminator
  let (globals, c) ← globals (← c.rewind.skip settings.equationHeader)
  let (constants, c) ← block mode .constants (← c.seek Marker.constants.text)
  let (dynamics, c) ← dynamicsAfterBlank mode (← c.seek Marker.afterStep.text)
  let ((outputNames, written), c) ← writeBlock mode (← c.seek Marker.writeOutput.text)
  let (evaluated, _) ← block mode .evaluateOutput (← c.seek Marker.evaluateOutput.text)
  .ok { globals, outputNames, statements := constants ++ dynamics ++ written ++ evaluated }

end Cursor

end MotionExport
