import MotionExport.Text.DecimalDigit
import MotionExport.Text.Rewriting
import MotionExport.Text.WordCharacter

/-! # Results in LaTeX

The result of a command of the symbolic dynamics program, rewritten for typesetting: sines and
cosines of coordinates become indexed letters, unit vectors get hats, rates of speeds get dots, and
multiplication signs are dropped.
-/

namespace MotionExport

namespace Latex

/-- `SIN(q1)` becomes `s_1`, whatever the letter of the coordinate. -/
def sineOfCoordinate : RewritingRule
  | 'S' :: 'I' :: 'N' :: '(' :: w :: d :: ')' :: _ =>
    if isWordCharacter w && isDecimalDigit d then some (['s', '_', d], 7) else none
  | _ => none

def cosineOfCoordinate : RewritingRule
  | 'C' :: 'O' :: 'S' :: '(' :: w :: d :: ')' :: _ =>
    if isWordCharacter w && isDecimalDigit d then some (['c', '_', d], 7) else none
  | _ => none

def sine : RewritingRule := .literal "SIN".toList "sin".toList

def cosine : RewritingRule := .literal "COS".toList "cos".toList

/-- A letter and a digit before a closing angle bracket are a unit vector. -/
def unitVector : RewritingRule
  | w :: d :: '>' :: _ =>
    if isDecimalDigit d && isWordCharacter w then
      some ("\\hat\x7b".toList ++ [w] ++ "\x7d_".toList ++ [d], 3)
    else none
  | _ => none

def speedRate : RewritingRule
  | 'u' :: d :: '\x27' :: _ =>
    if isDecimalDigit d then some ("\\dot\x7bu\x7d_".toList ++ [d], 3) else none
  | _ => none

/-- A digit behind a letter is an index. -/
def subscript : RewritingRule
  | c :: d :: _ => if c.isAlpha && isDecimalDigit d then some ([c, '_', d], 2) else none
  | _ => none

def wheelRadius : RewritingRule
  | 'r' :: 'R' :: _ => some ("r_R".toList, 2)
  | 'r' :: 'F' :: _ => some ("r_F".toList, 2)
  | _ => none

def angularVelocity : RewritingRule
  | 'W' :: '_' :: a :: '_' :: b :: '>' :: _ =>
    if a.isLower && b.isLower then
      some (['^', b.toUpper] ++ "\\omega^".toList ++ [a.toUpper], 6)
    else none
  | _ => none

/-- The squared magnitude that some listings repeat in every result. -/
def magnitudeTerm : Text := "(c_4^2c_5^2+(s_4s_7-s_5c_4c_7)^2)^0.5".toList

def magnitude : RewritingRule := .literal magnitudeTerm ['m']

/-- An exponent with one digit on each side of its point stands in braces. -/
def decimalPower : RewritingRule
  | '^' :: a :: '.' :: b :: _ =>
    if isDecimalDigit a && isDecimalDigit b then
      some (['^', '\x7b', a, '.', b, '\x7d'], 4)
    else none
  | _ => none

/-- The rules that come before multiplication signs are dropped, in order. -/
def markingRules : List RewritingRule :=
  [sineOfCoordinate, cosineOfCoordinate, sine, cosine, unitVector, speedRate, subscript,
    wheelRadius, angularVelocity]

def closingRules (substituteMagnitude : Bool) : List RewritingRule :=
  if substituteMagnitude then [magnitude, decimalPower] else [decimalPower]

def applyAll (rules : List RewritingRule) (t : Text) : Text :=
  rules.foldl (fun t rule => rule.apply t) t

def ofResult (substituteMagnitude : Bool) (t : Text) : Text :=
  applyAll (closingRules substituteMagnitude) ((applyAll markingRules t).filter (· ≠ '*'))

end Latex

end MotionExport
