import MotionExport.Number.Shortest

/-! # Number styles

How a 64-bit number is written: always by its shortest decimal, with a point or an exponent, so
that it cannot be taken for a whole number. A style says where positional writing ends.
-/

namespace MotionExport

/-- The choices of one output format. A magnitude with `places` digits before the point is written
positionally when `leastPlaces ≤ places ≤ mostPlaces`. -/
structure NumberStyle where
  leastPlaces : Int
  mostPlaces : Int
  plusInExponent : Bool
  tie : Tie
  notANumber : Text
  infinite : Bool → Text

namespace NumberStyle

/-- Reports and generated modules: positional from `1e-4` up to `1e16`, an exponent without a plus
sign, and words for what is not finite. -/
def plain : NumberStyle where
  leastPlaces := -3
  mostPlaces := 16
  plusInExponent := false
  tie := .up
  notANumber := "NaN".toList
  infinite negative := if negative then "-inf".toList else "inf".toList

/-- JSON: positional from `1e-5` up to `1e16`, an exponent with its sign, and `null` for what is
not finite. -/
def json : NumberStyle where
  leastPlaces := -4
  mostPlaces := 16
  plusInExponent := true
  tie := .even
  notANumber := "null".toList
  infinite _ := "null".toList

/-- Digits with the point after the first `places` of them, filled up with zeros. -/
def positional (digits : Text) : Int → Text
  | .negSucc n => "0.".toList ++ List.replicate (n + 1) '0' ++ digits
  | .ofNat 0 => "0.".toList ++ digits
  | .ofNat places =>
    if digits.length ≤ places then
      digits ++ List.replicate (places - digits.length) '0' ++ ".0".toList
    else digits.take places ++ ['.'] ++ digits.drop places

def scientific (s : NumberStyle) (digits : Text) (power : Int) : Text :=
  let mantissa := match digits with
    | d :: [] => [d]
    | d :: rest => d :: '.' :: rest
    | [] => []
  let exponent := match power with
    | .ofNat n => (if s.plusInExponent then ['+'] else []) ++ numeral n
    | .negSucc n => '-' :: numeral (n + 1)
  mantissa ++ 'e' :: exponent

def writeMagnitude (s : NumberStyle) (m : Magnitude) : Text :=
  if m = .zero then "0.0".toList
  else
    let d := m.shortest s.tie
    let digits := numeral d.coefficient
    let places := digits.length + d.exponent
    if s.leastPlaces ≤ places ∧ places ≤ s.mostPlaces then positional digits places
    else s.scientific digits (places - 1)

def write (s : NumberStyle) : Binary64 → Text
  | .nan => s.notANumber
  | .infinity negative => s.infinite negative
  | .finite negative m => (if negative then ['-'] else []) ++ s.writeMagnitude m

end NumberStyle

end MotionExport
