import MotionExport.Export.Error
import MotionExport.Export.Lines
import MotionExport.Export.Marker

/-! # Declarations

The `double` declarations before the main banner of an equations file. A declaration goes on in the
next line as long as it ends in a comma.
-/

namespace MotionExport

namespace Declarations

/-- The names that the first declaration of every file starts with. -/
def builtinNames : List Text := ["Pi".toList, "DEGtoRAD".toList, "RADtoDEG".toList]

def declaration? (line : Text) : Option Text :=
  match Text.after? "double".toList line with
  | some (c :: rest) => if isBlank c then some (Text.trim (c :: rest)) else none
  | _ => none

def isComplete (declaration : Text) : Bool := !declaration.endsWith ','

/-- The names of a complete declaration, without the built-in names at its start and the encoding
array at its end. -/
def namesOf (declaration : Text) : List Text :=
  let pieces := (declaration.dropEndWhile (· = ';')).splitOn ','
  let names := (pieces.map Text.trim).filter (· ≠ [])
  let own := names.dropWhile fun name => builtinNames.contains name
  match own.getLast? with
  | some last => if last.startsWith "Encode".toList then own.dropLast else own
  | none => own

/-- The declared names of the lines up to the main banner. -/
def globals : List Line → Except ExportError (List Text)
  | [] => .error (.markerNotFound Marker.main.text)
  | line :: rest =>
    if Marker.main.isOn line.trimmed then .ok []
    else
      match declaration? line.trimmed with
      | none => globals rest
      | some start =>
        match gather isComplete start (rest.map (·.text)) with
        | none => .error (.unfinishedStatement (rest.getLastD line).number)
        | some (declaration, used) => do
          let names ← globals (rest.drop used)
          .ok (namesOf declaration ++ names)
termination_by lines => lines.length
decreasing_by all_goals grind

end Declarations

end MotionExport
