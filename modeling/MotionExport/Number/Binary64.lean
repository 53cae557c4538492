/-! # Binary floating-point numbers

The 64-bit binary format: signed finite numbers with 53 significant bits, signed infinities and the
undefined value. A rational number is rounded to the nearest finite magnitude, and a tie goes to
the even significand.
-/

namespace MotionExport

/-- The whole number nearest to `num / den`; a half goes to the even neighbour. -/
def roundHalfEven (num den : Nat) : Nat :=
  let q := num / den
  let r := num % den
  if 2 * r < den ∨ (2 * r = den ∧ q % 2 = 0) then q else q + 1

/-- The finite magnitude `significand * 2 ^ exponent / 2 ^ 1074`. The significand has 53 bits, or
fewer at the lowest exponent. -/
structure Magnitude where
  significand : Nat
  exponent : Nat
  canonical : significand < Nat.pow 2 53 ∧ exponent ≤ 2045 ∧
    (exponent = 0 ∨ Nat.pow 2 52 ≤ significand)
  deriving DecidableEq

namespace Magnitude

def zero : Magnitude := ⟨0, 0, by decide⟩

def scaled (m : Magnitude) : Nat := m.significand * Nat.pow 2 m.exponent

/-- The magnitude nearest to `num / den`; none when that lies beyond the largest one. -/
def nearest (num den : Nat) : Option Magnitude :=
  let scaled := num * Nat.pow 2 1074
  let exponent := Nat.log2 (scaled / den) - 52
  let significand := roundHalfEven scaled (den * Nat.pow 2 exponent)
  if h : significand < Nat.pow 2 53 ∧ exponent ≤ 2045 ∧
      (exponent = 0 ∨ Nat.pow 2 52 ≤ significand) then
    some ⟨significand, exponent, h⟩
  else if h : exponent + 1 ≤ 2045 then
    some ⟨Nat.pow 2 52, exponent + 1, by decide, h, .inr (Nat.le_refl _)⟩
  else none

end Magnitude

inductive Binary64 where
  | nan
  | infinity (negative : Bool)
  | finite (negative : Bool) (magnitude : Magnitude)
  deriving DecidableEq

namespace Binary64

def zero : Binary64 := finite false .zero

instance : Inhabited Binary64 := ⟨zero⟩

def ofMagnitude (negative : Bool) : Option Magnitude → Binary64
  | some m => finite negative m
  | none => infinity negative

def IsFinite : Binary64 → Prop
  | finite _ _ => True
  | _ => False

instance (x : Binary64) : Decidable x.IsFinite := by
  cases x <;> unfold IsFinite <;> infer_instance

end Binary64

end MotionExport
