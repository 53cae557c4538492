import MotionExport.Artifact.Dump
import MotionExport.Artifact.Report
import MotionExport.Code.BuiltinTemplate
import MotionExport.Files.Tree

/-! # Artifact formats

A format renders documents and writes them to files that are named after the model.
-/

namespace MotionExport

/-- The kinds of artifacts that a document can be rendered to. -/
inductive Target where
  | text
  | json
  | module (language : Language)
  deriving DecidableEq

namespace Target

def extension : Target → Text
  | text => "txt".toList
  | json => "json".toList
  | module language => language.extension

def terminator : Target → Terminator
  | module .rust => .keep
  | _ => .strip

end Target

structure ArtifactFormat where
  target : Target
  /-- The template of a module, the built-in one unless it is given. -/
  template : Option Template := none
  matrixNames : List Text := defaultMatrixNames

namespace ArtifactFormat

def render (f : ArtifactFormat) (d : Document) : Except ArtifactError Text :=
  match f.target with
  | .text => .ok d.report
  | .json => .ok d.dump
  | .module language =>
    Code.render language (f.template.getD (Code.builtinTemplate language)) f.matrixNames d

def pathIn (f : ArtifactFormat) (directory : Text) (d : Document) : Text :=
  joinPath directory (d.name ++ ['.'] ++ f.target.extension)

end ArtifactFormat

namespace FileTree

def writeArtifact (tree : FileTree) (path text : Text) : Except ArtifactError FileTree :=
  (tree.write path (.file text)).mapError (.unwritable path)

def readArtifact (tree : FileTree) (path : Text) : Except ArtifactError Text :=
  (tree.read path).mapError (.unreadable path)

def readTemplate (tree : FileTree) (path : Text) : Except ArtifactError Template :=
  ((tree.read path).mapError (.templateUnreadable path)).map Template.ofText

def readReport (tree : FileTree) (path : Text) : Except ArtifactError Report :=
  (tree.readArtifact path).map Report.ofText

def readDump (tree : FileTree) (path : Text) : Except ArtifactError Document := do
  Document.ofDump (← tree.readArtifact path)

/-- Renders a document and writes it into a directory. The result is the path of the file and the
tree that holds it. -/
def writeDocument (tree : FileTree) (f : ArtifactFormat) (directory : Text) (d : Document) :
    Except ArtifactError (Text × FileTree) := do
  let text ← f.render d
  let path := f.pathIn directory d
  let tree ← tree.writeArtifact path text
  .ok (path, tree)

end FileTree

end MotionExport
