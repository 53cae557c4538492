import MotionExport.Text.Basic

/-! # File failures

The reasons why a file cannot be read or written.
-/

namespace MotionExport

inductive FileFailure where
  | missing
  | notDirectory
  | isDirectory
  | notText
  deriving DecidableEq

namespace FileFailure

def message : FileFailure → Text
  | missing => "No such file or directory (os error 2)".toList
  | notDirectory => "Not a directory (os error 20)".toList
  | isDirectory => "Is a directory (os error 21)".toList
  | notText => "stream did not contain valid UTF-8".toList

end FileFailure

end MotionExport
