import MotionExport.Latex.Result

/-! # Listings

A listing of a session interleaves numbered input lines with results. A result starts with an arrow
and may go on in the lines below:

    (3) Q3' = U3
    -> (4) Z = SIN(q1)*
       COS(q2)

A published listing keeps the input lines and the blank lines, has every result on one line in
LaTeX, and drops all else.
-/

namespace MotionExport

namespace Latex

/-- An input line starts with a number in parentheses. -/
def isInputLine : Text → Bool
  | '(' :: d :: _ => isDecimalDigit d
  | _ => false

def finished (substituteMagnitude : Bool) : Option Text → List Text
  | some result => [ofResult substituteMagnitude result]
  | none => []

/-- The published lines of a listing, when `result` has been read so far. -/
def publishLines (substituteMagnitude : Bool) (result : Option Text) : List Text → List Text
  | [] => finished substituteMagnitude result
  | line :: rest =>
    if line.trim = [] || isInputLine line.trim then
      finished substituteMagnitude result ++ line :: publishLines substituteMagnitude none rest
    else if line.startsWith "->".toList then
      publishLines substituteMagnitude (some line.trim) rest
    else publishLines substituteMagnitude (result.map (· ++ line.trim)) rest

def publish (substituteMagnitude : Bool) (listing : Text) : Text :=
  (publishLines substituteMagnitude none listing.lines).flatMap (· ++ ['\n'])

end Latex

end MotionExport
