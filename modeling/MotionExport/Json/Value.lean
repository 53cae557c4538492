import MotionExport.Text.Numeral

/-! # JSON values

A JSON value as a tree, and its text with two spaces of indentation for each level. A number is
kept as it is written.
-/

namespace MotionExport

/-- A string is `none` when its escapes name half a surrogate pair alone. Such a string is legal,
but it is no text. -/
inductive Json where
  | null
  | boolean (b : Bool)
  | number (written : Text)
  | string (t : Option Text)
  | array (items : List Json)
  | object (members : List (Option Text × Json))

namespace Json

/-- The text of a character inside a string. Quotes, backslashes and control characters are
escaped. -/
def escape (c : Char) : Text :=
  if c = '"' then "\\\"".toList
  else if c = '\\' then "\\\\".toList
  else if c = '\x08' then "\\b".toList
  else if c = '\x0c' then "\\f".toList
  else if c = '\n' then "\\n".toList
  else if c = '\r' then "\\r".toList
  else if c = '\t' then "\\t".toList
  else if c.toNat < 0x20 then
    "\\u00".toList ++ [(c.toNat / 16).digitChar, (c.toNat % 16).digitChar]
  else [c]

def quote (t : Text) : Text := '"' :: t.flatMap escape ++ ['"']

def newline (level : Nat) : Text := '\n' :: List.replicate (2 * level) ' '

mutual

def write (level : Nat) : Json → Text
  | null => "null".toList
  | boolean true => "true".toList
  | boolean false => "false".toList
  | number written => written
  | string t => quote (t.getD [])
  | array [] => "[]".toList
  | array (j :: js) =>
    ['['] ++ newline (level + 1) ++ write (level + 1) j ++ writeItems (level + 1) js
      ++ newline level ++ [']']
  | object [] => "\x7b\x7d".toList
  | object (m :: ms) =>
    ['\x7b'] ++ newline (level + 1) ++ writeMember (level + 1) m ++ writeMembers (level + 1) ms
      ++ newline level ++ ['\x7d']

def writeItems (level : Nat) : List Json → Text
  | [] => []
  | j :: js => [','] ++ newline level ++ write level j ++ writeItems level js

def writeMember (level : Nat) : Option Text × Json → Text
  | (key, j) => quote (key.getD []) ++ ": ".toList ++ write level j

def writeMembers (level : Nat) : List (Option Text × Json) → Text
  | [] => []
  | m :: ms => [','] ++ newline level ++ writeMember level m ++ writeMembers level ms

end

end Json

end MotionExport
