import MotionExport.Number.Decimal

/-! # Shortest decimals

The decimal number of fewest digits that reads back as a given magnitude. Of two such numbers the
nearer one is taken, and a style settles an exact tie.
-/

namespace MotionExport

inductive Tie where
  | up
  | even
  deriving DecidableEq

namespace Magnitude

def floorAt (m : Magnitude) : Int → Nat
  | .ofNat k => m.scaled / (Nat.pow 2 1074 * Nat.pow 10 k)
  | .negSucc k => m.scaled * Nat.pow 10 (k + 1) / Nat.pow 2 1074

/-- Compares `2 * m` with `n * 10 ^ k`. -/
def compareDouble (m : Magnitude) (n : Nat) : Int → Ordering
  | .ofNat k => compare (2 * m.scaled) (n * Nat.pow 10 k * Nat.pow 2 1074)
  | .negSucc k => compare (2 * m.scaled * Nat.pow 10 (k + 1)) (n * Nat.pow 2 1074)

/-- The number of digits before the point; zero or negative for a magnitude below one. -/
def places (m : Magnitude) : Int :=
  (numeral (m.scaled * Nat.pow 10 400 / Nat.pow 2 1074)).length - 400

def readsBack (m : Magnitude) (d : Decimal) : Bool := d.magnitude = some m

/-- The multiple of `10 ^ k` next to `m` that reads back, if one of its two neighbours does. -/
def neighbour? (tie : Tie) (m : Magnitude) (k : Int) : Option Decimal :=
  let below := m.floorAt k
  let lower : Decimal := ⟨below, k⟩
  let upper : Decimal := ⟨below + 1, k⟩
  match m.readsBack lower, m.readsBack upper with
  | false, false => none
  | true, false => some lower
  | false, true => some upper
  | true, true =>
    match m.compareDouble (2 * below + 1) k with
    | .lt => some lower
    | .gt => some upper
    | .eq =>
      match tie with
      | .up => some upper
      | .even => some (if below % 2 = 0 then lower else upper)

def exact (m : Magnitude) : Decimal := ⟨m.scaled * Nat.pow 5 1074, -1074⟩

/-- The decimal number of fewest digits that reads back as `m`. -/
def shortest (tie : Tie) (m : Magnitude) : Decimal :=
  let found := (List.range 17).findSome? fun n => m.neighbour? tie (m.places - (n + 1 : Nat))
  (found.getD m.exact).stripZeros

end Magnitude

end MotionExport
