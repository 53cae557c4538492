import MotionExport.Text.Basic

/-! # Numerals

Natural numbers as decimal texts. Reading takes ASCII digits only.
-/

namespace MotionExport

def numeral (n : Nat) : Text :=
  if n < 10 then [n.digitChar] else numeral (n / 10) ++ [(n % 10).digitChar]

def digitValue (c : Char) : Nat := c.toNat - '0'.toNat

def digitsValue (t : Text) : Nat := t.foldl (fun n c => 10 * n + digitValue c) 0

/-- The value of a non-empty row of ASCII digits. -/
def natural? (t : Text) : Option Nat :=
  if t ≠ [] ∧ t.all Char.isDigit then some (digitsValue t) else none

/-- A count is a row of digits below `2^64`, after at most one plus sign. -/
def count? (t : Text) : Option Nat :=
  let digits := match t with
    | '+' :: rest => rest
    | _ => t
  (natural? digits).filter (· < Nat.pow 2 64)

end MotionExport
