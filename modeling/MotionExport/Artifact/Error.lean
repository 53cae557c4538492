import MotionExport.Files.Failure

/-! # Artifact errors

Why an artifact cannot be rendered, written or read back.
-/

namespace MotionExport

inductive ArtifactError where
  | unwritable (path : Text) (cause : FileFailure)
  | templateUnreadable (path : Text) (cause : FileFailure)
  | unreadable (path : Text) (cause : FileFailure)
  | notAnEntry (line : Text)
  | unknownSlot (key : Text)
  | notADocument
  deriving DecidableEq

namespace ArtifactError

def message : ArtifactError → Text
  | unwritable path cause => "Failed to write file ".toList ++ path ++ ": ".toList ++ cause.message
  | templateUnreadable path cause =>
    "Failed to read template ".toList ++ path ++ ": ".toList ++ cause.message
  | unreadable path cause => "Failed to read file ".toList ++ path ++ ": ".toList ++ cause.message
  | notAnEntry line => "Malformed report line: ".toList ++ line
  | unknownSlot key =>
    "Template placeholder '".toList ++ key ++ "' has no value".toList
  | notADocument => "JSON error".toList

end ArtifactError

end MotionExport
