import MotionExport.Artifact.Format
import MotionExport.Export.Cursor
import MotionExport.Latex.Listing
import MotionExport.Linear.Script
import MotionExport.Model.Assembly

/-! # Conversion

From the two files of an export pair to the file of an artifact. Nothing is written unless all of
it succeeds.
-/

namespace MotionExport

inductive ConversionError where
  | invalidClassName (name : Text)
  | input (error : ExportError)
  | artifact (error : ArtifactError)
  deriving DecidableEq

namespace ConversionError

def message : ConversionError → Text
  | invalidClassName name =>
    "invalid class name ".toList ++ quoted name ++ ": expected an identifier".toList
  | input error => error.message
  | artifact error => error.message

def blamesInput : ConversionError → Bool
  | input _ => true
  | _ => false

end ConversionError

structure Conversion where
  /-- The path of both export files without their extensions. -/
  base : Text
  className : Text
  outputDirectory : Text := ['.']
  target : Target := .text
  matrixNames : List Text := defaultMatrixNames
  template : Option Template := none

namespace Conversion

def parameterPath (c : Conversion) : Text := c.base ++ ".in".toList

def equationPath (c : Conversion) : Text := c.base ++ ".c".toList

def settings (c : Conversion) : ExportSettings :=
  { matrixNames := c.matrixNames, terminator := c.target.terminator }

def format (c : Conversion) : ArtifactFormat :=
  { target := c.target, template := c.template, matrixNames := c.matrixNames }

/-- A class name is an ASCII identifier. -/
def isClassName : Text → Bool
  | c :: t => Token.startsIdentifier c && t.all Token.continuesIdentifier
  | [] => false

end Conversion

namespace FileTree

def readExport (tree : FileTree) (path : Text) : Except ExportError Text :=
  (tree.read path).mapError (.unreadable path)

def openCursor (tree : FileTree) (path : Text) : Except ExportError Cursor :=
  (tree.readExport path).map Cursor.ofText

/-- The document of the two export files. The parameter file is read first. -/
def readModel (tree : FileTree) (settings : ExportSettings)
    (parameterPath equationPath name : Text) : Except ExportError Document := do
  let parameters ← ParameterFile.ofText settings (← tree.readExport parameterPath)
  let log ← StatementLog.ofText settings (← tree.readExport equationPath)
  Document.build name parameters log settings.matrixNames

/-- The document of a conversion. The class name is checked before any file is read. -/
def extract (tree : FileTree) (c : Conversion) : Except ConversionError Document :=
  if Conversion.isClassName c.className then
    (tree.readModel c.settings c.parameterPath c.equationPath c.className).mapError .input
  else .error (.invalidClassName c.className)

/-- Converts an export pair. The result is the path of the artifact and the tree that holds it. -/
def convert (tree : FileTree) (c : Conversion) : Except ConversionError (Text × FileTree) := do
  let document ← tree.extract c
  (tree.writeDocument c.format c.outputDirectory document).mapError .artifact

def publishListing (tree : FileTree) (substituteMagnitude : Bool) (input output : Text) :
    Except ArtifactError FileTree := do
  let listing ← tree.readArtifact input
  tree.writeArtifact output (Latex.publish substituteMagnitude listing)

end FileTree

end MotionExport
