import MotionExport.Json.Number
import MotionExport.Json.Value

/-! # Reading JSON

A text is cut into tokens, and the tokens are put together to a value. Only spaces, tabs, line
feeds and carriage returns may stand between tokens, and nothing but these behind the value.
-/

namespace MotionExport

inductive JsonToken where
  | mark (c : Char)
  | null
  | boolean (b : Bool)
  | number (written : Text)
  | string (t : Option Text)
  deriving DecidableEq

namespace JsonToken

/-- A piece of a string: a character as it stands or as a short escape, or the code unit of a long
escape. -/
inductive Piece where
  | char (c : Char)
  | unit (n : Nat)
  deriving DecidableEq

def hexValue? (c : Char) : Option Nat :=
  if c.isDigit then some (c.toNat - '0'.toNat)
  else if 'a' ≤ c ∧ c ≤ 'f' then some (c.toNat - 'a'.toNat + 10)
  else if 'A' ≤ c ∧ c ≤ 'F' then some (c.toNat - 'A'.toNat + 10)
  else none

def shortEscape? (c : Char) : Option Char :=
  if c = '"' ∨ c = '\\' ∨ c = '/' then some c
  else if c = 'b' then some '\x08'
  else if c = 'f' then some '\x0c'
  else if c = 'n' then some '\n'
  else if c = 'r' then some '\r'
  else if c = 't' then some '\t'
  else none

def scanPieces : Text → Option (List Piece × Text)
  | [] => none
  | '"' :: t => some ([], t)
  | '\\' :: 'u' :: a :: b :: c :: d :: t => do
    let unit := 4096 * (← hexValue? a) + 256 * (← hexValue? b) + 16 * (← hexValue? c)
      + (← hexValue? d)
    let (pieces, rest) ← scanPieces t
    some (.unit unit :: pieces, rest)
  | '\\' :: c :: t => do
    let char ← shortEscape? c
    let (pieces, rest) ← scanPieces t
    some (.char char :: pieces, rest)
  | c :: t => do
    if c.toNat < 0x20 ∨ c = '\\' then none
    let (pieces, rest) ← scanPieces t
    some (.char c :: pieces, rest)

def isHighSurrogate (n : Nat) : Bool := 0xD800 ≤ n && n ≤ 0xDBFF

def isLowSurrogate (n : Nat) : Bool := 0xDC00 ≤ n && n ≤ 0xDFFF

/-- The text of the pieces; none when half a surrogate pair stands alone. -/
def textOf : List Piece → Option Text
  | [] => some []
  | .char c :: rest => (textOf rest).map (c :: ·)
  | .unit high :: .unit low :: rest =>
    if isHighSurrogate high then
      if isLowSurrogate low then
        (textOf rest).map (Char.ofNat (0x10000 + 0x400 * (high - 0xD800) + (low - 0xDC00)) :: ·)
      else none
    else if isLowSurrogate high then none
    else (textOf (.unit low :: rest)).map (Char.ofNat high :: ·)
  | .unit n :: rest =>
    if isHighSurrogate n || isLowSurrogate n then none
    else (textOf rest).map (Char.ofNat n :: ·)

def isSpace (c : Char) : Bool := c = ' ' || c = '\t' || c = '\n' || c = '\r'

def isMarkCharacter (c : Char) : Bool :=
  c = '[' || c = ']' || c = '\x7b' || c = '\x7d' || c = ':' || c = ','

def first (t : Text) : Option (JsonToken × Text) :=
  match t with
  | [] => none
  | c :: rest =>
    if isMarkCharacter c then some (.mark c, rest)
    else if c = '"' then (scanPieces rest).map fun (pieces, rest) => (.string (textOf pieces), rest)
    else
      match Text.after? "null".toList t, Text.after? "true".toList t,
        Text.after? "false".toList t with
      | some rest, _, _ => some (.null, rest)
      | _, some rest, _ => some (.boolean true, rest)
      | _, _, some rest => some (.boolean false, rest)
      | _, _, _ =>
        (JsonNumber.scan t).map fun (_, rest) => (.number (t.take (t.length - rest.length)), rest)

/-- The tokens of a text, read with at most `fuel` steps. -/
def scanWith : Nat → Text → Option (List JsonToken)
  | 0, _ => none
  | fuel + 1, t =>
    match t.dropWhile isSpace with
    | [] => some []
    | c :: t => do
      let (token, rest) ← first (c :: t)
      let tokens ← scanWith fuel rest
      some (token :: tokens)

/-- The tokens of a text. A token takes a character at least, so no text runs out of steps. -/
def scan (t : Text) : Option (List JsonToken) := scanWith (t.length + 1) t

end JsonToken

namespace Json

open JsonToken

mutual

def readValue : Nat → List JsonToken → Option (Json × List JsonToken)
  | 0, _ => none
  | fuel + 1, tokens =>
    match tokens with
    | .null :: rest => some (null, rest)
    | .boolean b :: rest => some (boolean b, rest)
    | .number written :: rest => some (number written, rest)
    | .string t :: rest => some (string t, rest)
    | .mark '[' :: .mark ']' :: rest => some (array [], rest)
    | .mark '[' :: rest => (readItems fuel rest).map fun (items, rest) => (array items, rest)
    | .mark '\x7b' :: .mark '\x7d' :: rest => some (object [], rest)
    | .mark '\x7b' :: rest =>
      (readMembers fuel rest).map fun (members, rest) => (object members, rest)
    | _ => none

def readItems : Nat → List JsonToken → Option (List Json × List JsonToken)
  | 0, _ => none
  | fuel + 1, tokens => do
    let (item, rest) ← readValue fuel tokens
    match rest with
    | .mark ']' :: rest => some ([item], rest)
    | .mark ',' :: rest =>
      (readItems fuel rest).map fun (items, rest) => (item :: items, rest)
    | _ => none

def readMembers : Nat → List JsonToken → Option (List (Option Text × Json) × List JsonToken)
  | 0, _ => none
  | fuel + 1, tokens =>
    match tokens with
    | .string key :: .mark ':' :: rest => do
      let (value, rest) ← readValue fuel rest
      match rest with
      | .mark '\x7d' :: rest => some ([(key, value)], rest)
      | .mark ',' :: rest =>
        (readMembers fuel rest).map fun (members, rest) => ((key, value) :: members, rest)
      | _ => none
    | _ => none

end

/-- The value that a text consists of. Two steps to a token are enough. -/
def ofText? (t : Text) : Option Json := do
  let tokens ← scan t
  match readValue (2 * tokens.length + 1) tokens with
  | some (value, []) => some value
  | _ => none

end Json

end MotionExport
