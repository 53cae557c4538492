import MotionExport.Export.Error
import MotionExport.Export.Lines

/-! # Cursors

A cursor walks over the lines of a file. It can jump behind a marker, which is always looked for
from the top, skip lines, hand out the next line, and read a statement that is wrapped over lines.
A step that fails leaves the cursor at the end.
-/

namespace MotionExport

/-- The lines of a file and how many of them have been handed out. -/
structure Cursor where
  lines : List Text
  position : Nat := 0
  deriving DecidableEq

namespace Cursor

def ofText (t : Text) : Cursor := { lines := t.lines }

def remaining (c : Cursor) : List Text := c.lines.drop c.position

def isExhausted (c : Cursor) : Bool := c.lines.length ≤ c.position

def rewind (c : Cursor) : Cursor := { c with position := 0 }

def exhaust (c : Cursor) : Cursor := { c with position := c.lines.length }

def advance (c : Cursor) (count : Nat) : Cursor := { c with position := c.position + count }

def next (c : Cursor) : Option Text × Cursor :=
  match c.remaining with
  | [] => (none, c)
  | line :: _ => (some line, c.advance 1)

/-- Goes behind the first line of the file that is `marker` between blanks. -/
def seek (c : Cursor) (marker : Text) : Except ExportError Cursor :=
  match c.lines.findIdx? fun line => line.trim = marker with
  | some i => .ok { c with position := i + 1 }
  | none => .error (.markerNotFound marker)

def skip (c : Cursor) (count : Nat) : Except ExportError Cursor :=
  if count ≤ c.remaining.length then .ok (c.advance count)
  else .error (.malformedLine c.lines.length (.headerTooShort count))

/-- Reads the statement that starts with `seed`, the line handed out last. -/
def statement (c : Cursor) (seed : Text) (mode : Terminator) :
    Except ExportError (Text × Cursor) :=
  match gatherStatement seed c.remaining with
  | some (statement, used) => .ok (mode.finish statement, c.advance used)
  | none => .error (.unfinishedStatement c.position)

inductive Step where
  | seek (marker : Text)
  | skip (count : Nat)
  | rewind
  | next
  | nextTrimmed
  | statement (seed : Text) (mode : Terminator)
  deriving DecidableEq

/-- What a step hands out: nothing, a line unless the cursor is at the end, or a statement. -/
inductive Answer where
  | done
  | line (line : Option Text)
  | statement (statement : Text)
  deriving DecidableEq

/-- The outcome of a step and the cursor after it. -/
def perform (c : Cursor) : Step → Except ExportError Answer × Cursor
  | .seek marker =>
    match c.seek marker with
    | .ok c => (.ok .done, c)
    | .error e => (.error e, c.exhaust)
  | .skip count =>
    match c.skip count with
    | .ok c => (.ok .done, c)
    | .error e => (.error e, c.exhaust)
  | .rewind => (.ok .done, c.rewind)
  | .next => (.ok (.line c.next.1), c.next.2)
  | .nextTrimmed => (.ok (.line (c.next.1.map Text.trim)), c.next.2)
  | .statement seed mode =>
    match c.statement seed mode with
    | .ok (statement, c) => (.ok (.statement statement), c)
    | .error e => (.error e, c.exhaust)

def run (c : Cursor) : List Step → List (Except ExportError Answer × Cursor)
  | [] => []
  | step :: steps => c.perform step :: (c.perform step).2.run steps

end Cursor

end MotionExport
