import MotionExport.Files.Failure
import MotionExport.Model.IntegrationOption
import MotionExport.Text.Numeral

/-! # Export errors

Why an export pair cannot be turned into a model. Each cause carries the data that its message
names.
-/

namespace MotionExport

/-- What is wrong with a line whose layout is fixed. -/
inductive LineFault where
  | headerTooShort (count : Nat)
  | noAssignment (statement : Text)
  | noLeftSide
  | missingWord (count : Nat)
  | notNumber (word : Text)
  | repeatedName (name : Text)
  deriving DecidableEq

/-- How the outputs and the equations found for them disagree. -/
inductive OutputFault where
  | missing (expected found : Nat) (names : List Text)
  | undefined (names : List Text)
  deriving DecidableEq

inductive ExportError where
  | unreadable (path : Text) (cause : FileFailure)
  | markerNotFound (marker : Text)
  | unfinishedStatement (line : Nat)
  | unresolvedOutputs (fault : OutputFault)
  | malformedLine (line : Nat) (fault : LineFault)
  | sharedName (name : Text)
  | unreadableAuxSize (declaration : Text)
  | optionNotSet (option : IntegrationOption)
  deriving DecidableEq

def quoted (t : Text) : Text := ['\x27'] ++ t ++ ['\x27']

def nameList (names : List Text) : Text := ", ".toList.intercalate names

namespace LineFault

def message : LineFault → Text
  | headerTooShort count => "file ends inside its ".toList ++ numeral count ++ "-line header".toList
  | noAssignment statement => "expected an assignment, got ".toList ++ quoted statement
  | noLeftSide => "assignment has no left-hand side".toList
  | missingWord count => "expected at least ".toList ++ numeral count ++ " tokens".toList
  | notNumber word => quoted word ++ " is not a number".toList
  | repeatedName name => "duplicate name ".toList ++ quoted name

end LineFault

namespace OutputFault

def message : OutputFault → Text
  | missing expected found names =>
    "expected ".toList ++ numeral expected ++ " non-state outputs, found ".toList ++ numeral found
      ++ "; missing: ".toList ++ nameList names
  | undefined names => "outputs with no defining equation: ".toList ++ nameList names

end OutputFault

namespace ExportError

def message : ExportError → Text
  | unreadable path cause => "failed to read ".toList ++ path ++ ": ".toList ++ cause.message
  | markerNotFound marker => "section marker not found: ".toList ++ marker
  | unfinishedStatement line =>
    "statement starting at line ".toList ++ numeral line
      ++ " is not terminated before end of file".toList
  | unresolvedOutputs fault => "output classification mismatch: ".toList ++ fault.message
  | malformedLine line fault =>
    "malformed line ".toList ++ numeral line ++ ": ".toList ++ fault.message
  | sharedName name => "duplicate model name ".toList ++ quoted name
  | unreadableAuxSize declaration =>
    "invalid auxiliary declaration ".toList ++ quoted declaration
  | optionNotSet option =>
    "integration option ".toList ++ quoted option.keyword ++ " missing from parameter file".toList

end ExportError

end MotionExport
