import MotionExport.Expression.Token
import MotionExport.Text.Numeral

/-! # Names in expressions

A name is read by an expression where it stands free: neither behind a point, nor as a called
function or the owner of a member. An element of the array of auxiliary variables counts as one
name. An element target is a name with a bracketed whole number.
-/

namespace MotionExport

namespace Expression

/-- The token behind `before` is a member of something. -/
def isMember (before : Option Token) : Bool := before.any (·.isMark '.')

/-- An identifier before these tokens is a called function or an owner. -/
def opensUse (rest : List Token) : Bool :=
  rest.head?.any fun next => next.isMark '(' || next.isMark '.'

def auxiliaryName? (t : Token) : List Token → Option Text
  | opening :: index :: closing :: _ =>
    if t.text = ['z'] && opening.isMark '[' && closing.isMark ']' then
      some ("z[".toList ++ index.text ++ [']'])
    else none
  | _ => none

def nameRead? (before : Option Token) (t : Token) (rest : List Token) : Option Text :=
  if t.isIdentifier && !isMember before && !opensUse rest then
    some ((auxiliaryName? t rest).getD t.text)
  else none

def namesReadBy (before : Option Token) : List Token → List Text
  | [] => []
  | t :: rest => (nameRead? before t rest).toList ++ namesReadBy (some t) rest

/-- The names that an expression reads, in order and with repeats. -/
def namesRead (expression : Text) : List Text := namesReadBy none (Token.scan expression)

/-- The base and the index of a target such as `Encode[2]`. -/
def elementTarget? (lhs : Text) : Option (Text × Nat) := do
  let (base, rest) ← Text.splitOnce ['['] lhs
  let inside ← Text.before? [']'] rest
  let index ← count? inside.trim
  if base ≠ [] ∧ base.all Token.continuesIdentifier then some (base, index) else none

end Expression

end MotionExport
