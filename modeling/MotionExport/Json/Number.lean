import MotionExport.Number.Decimal

/-! # JSON numbers

The grammar of JSON numbers and the 64-bit number that is read for one. Reading is quick rather
than exact: the leading digits that fit into 64 bits make a whole number, and scaling it by a power
of ten rounds it at each step.
-/

namespace MotionExport

namespace Magnitude

def mul (x y : Magnitude) : Option Magnitude :=
  nearest (x.scaled * y.scaled) (Nat.pow 2 1074 * Nat.pow 2 1074)

def div (x y : Magnitude) : Option Magnitude := nearest x.scaled y.scaled

def tenTo (power : Nat) : Option Magnitude := (Decimal.mk 1 power).magnitude

/-- The largest power of ten that a number is scaled by at a time. -/
def largestStep : Nat := 308

def scaleDown (x : Magnitude) (power : Nat) : Option Magnitude :=
  if power ≤ largestStep then (tenTo power).bind x.div
  else if x = .zero then some x
  else ((tenTo largestStep).bind x.div).bind fun y => y.scaleDown (power - largestStep)
termination_by power
decreasing_by simp_all [largestStep]; omega

/-- Scales by a power of ten. Zero stays zero, and another number may become too large. -/
def scale (x : Magnitude) : Int → Option Magnitude
  | .ofNat power =>
    if power ≤ largestStep then (tenTo power).bind x.mul
    else if x = .zero then some x
    else none
  | .negSucc power => x.scaleDown (power + 1)

end Magnitude

/-- The parts of a written number: its digits before and behind the point, the latter empty without
a point, and the sign and the digits of its exponent. -/
structure JsonNumber where
  negative : Bool
  whole : Text
  fraction : Text
  exponent : Option (Bool × Text)
  deriving DecidableEq

namespace JsonNumber

def scanWhole : Text → Option (Text × Text)
  | '0' :: t => some (['0'], t)
  | c :: t =>
    if c.isDigit then some (c :: t.takeWhile Char.isDigit, t.dropWhile Char.isDigit) else none
  | [] => none

def scanDigits (t : Text) : Option (Text × Text) :=
  if t.takeWhile Char.isDigit = [] then none
  else some (t.takeWhile Char.isDigit, t.dropWhile Char.isDigit)

def scanFraction : Text → Option (Text × Text)
  | '.' :: t => scanDigits t
  | t => some ([], t)

def scanExponent : Text → Option (Option (Bool × Text) × Text)
  | c :: t =>
    if c = 'e' ∨ c = 'E' then
      let (negative, t) := match t with
        | '+' :: t => (false, t)
        | '-' :: t => (true, t)
        | t => (false, t)
      (scanDigits t).map fun (digits, t) => (some (negative, digits), t)
    else some (none, c :: t)
  | [] => some (none, [])

def scan (t : Text) : Option (JsonNumber × Text) := do
  let (negative, t) := match t with
    | '-' :: t => (true, t)
    | t => (false, t)
  let (whole, t) ← scanWhole t
  let (fraction, t) ← scanFraction t
  let (exponent, t) ← scanExponent t
  some (⟨negative, whole, fraction, exponent⟩, t)

def ofText? (t : Text) : Option JsonNumber :=
  match scan t with
  | some (n, []) => some n
  | _ => none

/-- Appends digits to a whole number as long as it stays below `2 ^ 64`. The second component is
the number of digits taken. -/
def accumulate (significand : Nat) : Text → Nat × Nat
  | [] => (significand, 0)
  | c :: t =>
    if 10 * significand + digitValue c < Nat.pow 2 64 then
      let (whole, taken) := accumulate (10 * significand + digitValue c) t
      (whole, taken + 1)
    else (significand, 0)

def exponentValue (n : JsonNumber) : Int :=
  match n.exponent with
  | none => 0
  | some (true, digits) => -(digitsValue digits : Int)
  | some (false, digits) => digitsValue digits

/-- The 64-bit number that is read; none when it is too large. -/
def toBinary64? (n : JsonNumber) : Option Binary64 :=
  let (whole, taken) := accumulate 0 n.whole
  let (significand, places) := accumulate whole n.fraction
  let power := n.exponentValue + (n.whole.length - taken : Nat) - places
  ((Magnitude.nearest significand 1).bind fun x => x.scale power).map (.finite n.negative)

/-- The count that is read: a whole number below `2 ^ 64` without a sign, a point or an exponent. -/
def toCount? (n : JsonNumber) : Option Nat :=
  if n.negative ∨ n.fraction ≠ [] ∨ n.exponent ≠ none then none
  else (some (digitsValue n.whole)).filter (· < Nat.pow 2 64)

end JsonNumber

end MotionExport
