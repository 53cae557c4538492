import MotionExport.Text.Numeral
import MotionExport.Number.Binary64

/-! # Decimal numbers

Numbers written in decimal and the 64-bit number nearest to each of them.
-/

namespace MotionExport

/-- The number `coefficient * 10 ^ exponent`. -/
structure Decimal where
  coefficient : Nat
  exponent : Int
  deriving DecidableEq

namespace Decimal

def overflowPower : Int := 310

def underflowPower : Int := -330

/-- The nearest magnitude; none beyond the largest one. A number of too many places, on either side
of the point, is settled without computing its power of ten. -/
def magnitude (d : Decimal) : Option Magnitude :=
  if d.coefficient = 0 then some .zero
  else
    let places := (numeral d.coefficient).length + d.exponent
    if places > overflowPower then none
    else if places < underflowPower then some .zero
    else
      match d.exponent with
      | .ofNat e => Magnitude.nearest (d.coefficient * Nat.pow 10 e) 1
      | .negSucc e => Magnitude.nearest d.coefficient (Nat.pow 10 (e + 1))

def stripZeros (d : Decimal) : Decimal :=
  let digits := numeral d.coefficient
  let kept := digits.reverse.dropWhile (· = '0')
  ⟨digitsValue kept.reverse, d.exponent + (digits.length - kept.length : Nat)⟩

def exponentPart? : Text → Option Int
  | '-' :: t => (natural? t).map fun n => -(n : Int)
  | '+' :: t => (natural? t).map Int.ofNat
  | t => (natural? t).map Int.ofNat

/-- Reads `digits`, `digits.`, `.digits` or `digits.digits`, with an exponent part after `e` or
`E` if there is one. -/
def parse? (t : Text) : Option Decimal :=
  let whole := t.takeWhile Char.isDigit
  let rest := t.dropWhile Char.isDigit
  let (fraction, rest) := match rest with
    | '.' :: rest => (rest.takeWhile Char.isDigit, rest.dropWhile Char.isDigit)
    | _ => ([], rest)
  let digits := whole ++ fraction
  if digits = [] then none
  else
    let power? : Option Int := match rest with
      | [] => some 0
      | c :: rest => if c = 'e' ∨ c = 'E' then exponentPart? rest else none
    power?.map fun power => ⟨digitsValue digits, power - fraction.length⟩

end Decimal

namespace Binary64

/-- Reads an unsigned number: a decimal one, or `inf`, `infinity` or `nan` in letters of any
case. -/
def parseUnsigned? (negative : Bool) (t : Text) : Option Binary64 :=
  match Decimal.parse? t with
  | some d => some (ofMagnitude negative d.magnitude)
  | none =>
    let word := t.map Char.toLower
    if word = "inf".toList ∨ word = "infinity".toList then some (infinity negative)
    else if word = "nan".toList then some nan
    else none

/-- Reads a number with an optional sign, rounded to the nearest one of the format. -/
def parse? : Text → Option Binary64
  | '-' :: t => parseUnsigned? true t
  | '+' :: t => parseUnsigned? false t
  | t => parseUnsigned? false t

end Binary64

end MotionExport
