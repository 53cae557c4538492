import MotionExport.Expression.Token
import MotionExport.Text.Bytes

/-! # Scanning by bytes

The tokens of a text, found by a walk over its bytes. A byte is looked at as the character of its
code, which is not the character of the text where that takes several bytes. Every token is cut out
of the text between the place where it starts and the place where the walk goes on.
-/

namespace MotionExport

namespace Token

section Passing

variable (bytes : List UInt8)

def byteIs (p : Char → Bool) (place : Nat) : Bool :=
  bytes[place]?.any fun b => p (Char.ofUInt8 b)

theorem lt_of_byteIs {bytes : List UInt8} {p : Char → Bool} {place : Nat}
    (h : byteIs bytes p place = true) : place < bytes.length := by
  obtain ⟨b, hb, -⟩ := Option.any_eq_true _ _ |>.mp h
  exact (List.getElem?_eq_some_iff.mp hb).1

def passWhile (p : Char → Bool) (place : Nat) : Nat :=
  if byteIs bytes p place then passWhile p (place + 1) else place
termination_by bytes.length - place
decreasing_by
  rename_i h
  have hlt := lt_of_byteIs h
  omega

def passFraction (place : Nat) : Nat :=
  if byteIs bytes (· = '.') place then passWhile bytes Char.isDigit (place + 1) else place

def passSign (place : Nat) : Nat :=
  if byteIs bytes (fun c => c = '+' || c = '-') place then place + 1 else place

/-- Passes over an exponent if it has a digit. -/
def passExponent (place : Nat) : Nat :=
  if byteIs bytes (fun c => c = 'e' || c = 'E') place then
    if byteIs bytes Char.isDigit (passSign bytes (place + 1)) then
      passWhile bytes Char.isDigit (passSign bytes (place + 1))
    else place
  else place

def passNumber (place : Nat) : Nat :=
  passExponent bytes (passFraction bytes (passWhile bytes Char.isDigit place))

def passQuoted (quote : Char) (place : Nat) : Nat :=
  min (passWhile bytes (· ≠ quote) (place + 1) + 1) bytes.length

end Passing

/-- The kind of the token that starts with the byte `c` at a place, and the place behind it. It
fails if a character is asked for at a place inside of one. -/
def tokenEnd? (t : Text) (place : Nat) (c : Char) : Option (TokenKind × Nat) :=
  if startsIdentifier c then
    some (.identifier, passWhile t.utf8 continuesIdentifier (place + 1))
  else if c.isDigit || c = '.' && byteIs t.utf8 Char.isDigit (place + 1) then
    some (.number, passNumber t.utf8 place)
  else if c = '"' ∨ c = '\x27' then some (.quoted, passQuoted t.utf8 c place)
  else do
    let (_, behind) ← t.cutAt? place
    return (.punctuation, place + behind.head?.elim 1 Char.utf8Size)

section Progress

variable {bytes : List UInt8} {p : Char → Bool} {place next : Nat}

theorem byteIs_of_getElem? {b : UInt8} (h : bytes[place]? = some b) :
    byteIs bytes p place = p (Char.ofUInt8 b) := by
  rw [byteIs, h, Option.any_some]

theorem le_passWhile (bytes : List UInt8) (p : Char → Bool) (place : Nat) :
    place ≤ passWhile bytes p place := by
  fun_induction passWhile bytes p place with
  | case1 place h ih => omega
  | case2 place h => exact Nat.le_refl place

theorem le_passFraction (bytes : List UInt8) (place : Nat) : place ≤ passFraction bytes place := by
  have hdigits := le_passWhile bytes Char.isDigit (place + 1)
  unfold passFraction
  split
  · omega
  · exact Nat.le_refl place

theorem le_passExponent (bytes : List UInt8) (place : Nat) : place ≤ passExponent bytes place := by
  have hsign : place + 1 ≤ passSign bytes (place + 1) := by
    unfold passSign
    split <;> omega
  have hdigits := le_passWhile bytes Char.isDigit (passSign bytes (place + 1))
  unfold passExponent
  split
  · split <;> omega
  · exact Nat.le_refl place

theorem lt_passNumber (h : byteIs bytes Char.isDigit place = true ∨
    byteIs bytes (· = '.') place = true) : place < passNumber bytes place := by
  have hwhole := le_passWhile bytes Char.isDigit place
  have hfraction := le_passFraction bytes (passWhile bytes Char.isDigit place)
  have hexponent := le_passExponent bytes (passFraction bytes (passWhile bytes Char.isDigit place))
  rw [passNumber]
  rcases h with hdigit | hpoint
  · have hbehind := le_passWhile bytes Char.isDigit (place + 1)
    rw [passWhile, if_pos hdigit] at hwhole hfraction hexponent ⊢
    omega
  · -- Either there are digits in front of a point, or the point stands at the place itself.
    rcases Nat.eq_or_lt_of_le hwhole with heq | hlt
    · have hbehind := le_passWhile bytes Char.isDigit (place + 1)
      rw [← heq, passFraction, if_pos hpoint] at hexponent ⊢
      omega
    · omega

theorem lt_of_tokenEnd? {t : Text} {b : UInt8} {kind : TokenKind} (hb : t.utf8[place]? = some b)
    (h : tokenEnd? t place (Char.ofUInt8 b) = some (kind, next)) : place < next := by
  unfold tokenEnd? at h
  split at h
  · obtain ⟨-, rfl⟩ := Prod.mk.inj (Option.some.inj h)
    exact le_passWhile _ _ (place + 1)
  split at h
  · rename_i hnumber
    obtain ⟨-, rfl⟩ := Prod.mk.inj (Option.some.inj h)
    refine lt_passNumber ?_
    rw [byteIs_of_getElem? hb, byteIs_of_getElem? hb]
    simp only [Bool.or_eq_true, Bool.and_eq_true] at hnumber
    exact hnumber.imp_right And.left
  split at h
  · obtain ⟨-, rfl⟩ := Prod.mk.inj (Option.some.inj h)
    have hinside := le_passWhile t.utf8 (· ≠ Char.ofUInt8 b) (place + 1)
    have hlt := (List.getElem?_eq_some_iff.mp hb).1
    unfold passQuoted
    omega
  · obtain ⟨⟨_, behind⟩, -, hnext⟩ := Option.bind_eq_some_iff.mp h
    obtain ⟨-, rfl⟩ := Prod.mk.inj (Option.some.inj hnext)
    cases behind with
    | nil => exact Nat.lt_add_one place
    | cons c behind => exact Nat.lt_add_of_pos_right c.utf8Size_pos

end Progress

/-- The tokens from a place on. It fails if a place where the text is looked at or cut is inside of
a character. -/
def scanFrom? (t : Text) (place : Nat) : Option (List Token) :=
  match _hb : t.utf8[place]? with
  | none => some []
  | some b =>
    match _h : tokenEnd? t place (Char.ofUInt8 b) with
    | none => none
    | some (kind, next) => do
      let text ← t.slice? place next
      let tokens ← scanFrom? t next
      return ⟨kind, text⟩ :: tokens
termination_by t.utf8.length - place
decreasing_by
  have hnext := lt_of_tokenEnd? _hb _h
  have hlt := (List.getElem?_eq_some_iff.mp _hb).1
  omega

def scanBytes? (t : Text) : Option (List Token) := scanFrom? t 0

end Token

end MotionExport
