import MotionExport.Text.Basic

/-! # Markers

The comment lines that separate the sections of an equations file. The banner of the main program
has no fixed text, so it is recognised by its words and reported under a name of its own.
-/

namespace MotionExport

inductive Marker where
  | main
  | constants
  | afterStep
  | beforeStep
  | toBeSpecified
  | wereSpecified
  | writeOutput
  | evaluateOutput
  deriving DecidableEq

namespace Marker

def text : Marker → Text
  | main => "/* MAIN */".toList
  | constants => "/* Evaluate constants */".toList
  | afterStep => "/* Update variables after integration step */".toList
  | beforeStep => "/* Update derivative array prior to integration step */".toList
  | toBeSpecified => "/* Quantities to be specified */".toList
  | wereSpecified => "/* Quantities which were specified */".toList
  | writeOutput => "/* Write output to screen and to output file(s) */".toList
  | evaluateOutput => "/* Evaluate output quantities */".toList

/-- The banner is a comment of at least five words of which the third is `MAIN` and the fifth ends
the comment. -/
def isMainBanner (line : Text) : Bool :=
  match line.words with
  | first :: _ :: third :: _ :: fifth :: _ =>
    first = "/*".toList && third = "MAIN".toList && fifth = "*/".toList
  | _ => false

def isOn (m : Marker) (line : Text) : Bool :=
  match m with
  | main => isMainBanner line
  | _ => line = m.text

/-- Whether a trimmed line opens a part with specified inputs. -/
def opensSpecified (line : Text) : Bool := toBeSpecified.isOn line || wereSpecified.isOn line

end Marker

end MotionExport
