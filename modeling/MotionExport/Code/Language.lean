import MotionExport.Expression.Rewriting
import MotionExport.Number.Style

/-! # Target languages

What the two languages of generated modules write differently: quotes, terminators, bindings,
lists and arrays.
-/

namespace MotionExport

inductive Language where
  | rust
  | python
  deriving DecidableEq

namespace Language

def extension : Language → Text
  | rust => "rs".toList
  | python => "py".toList

def quote : Language → Char
  | rust => '"'
  | python => '\x27'

def terminator : Language → Text
  | rust => [';']
  | python => []

/-- The state, input, output and feed-forward matrices of a generated module. -/
def matrixTargets : Language → List Text
  | rust => ["linear.a".toList, "linear.b".toList, "linear.c".toList, "linear.d".toList]
  | python => ["self.A".toList, "self.B".toList, "self.C".toList, "self.D".toList]

def indexStyle : Language → Expression.IndexStyle
  | rust => .nested
  | python => .tuple

def assignment (lang : Language) (target value : Text) : Text :=
  target ++ " = ".toList ++ value ++ lang.terminator

def binding (lang : Language) (name value : Text) : Text :=
  match lang with
  | rust => "let ".toList ++ lang.assignment name value
  | python => lang.assignment name value

def number (x : Binary64) : Text := NumberStyle.plain.write x

def quoted (lang : Language) (t : Text) : Text := [lang.quote] ++ t ++ [lang.quote]

def commaSeparated (items : List Text) : Text := ", ".toList.intercalate items

/-- The items of a list literal. The brackets around them are left to the template of the module
where the language has a place for them there. -/
def listItems (lang : Language) (items : List Text) : Text :=
  match lang with
  | rust => commaSeparated items
  | python => ['['] ++ commaSeparated items ++ [']']

def stringList (lang : Language) (items : List Text) : Text :=
  lang.listItems (items.map lang.quoted)

def numberList (lang : Language) (values : List Binary64) : Text :=
  lang.listItems (values.map number)

def vector (lang : Language) (names : List Text) : Text :=
  match lang with
  | rust => "vec![".toList ++ commaSeparated names ++ [']']
  | python => "array([".toList ++ commaSeparated names ++ "])".toList

def arrayDeclaration (lang : Language) (name : Text) (length : Nat) : Text :=
  match lang with
  | rust => "let mut ".toList ++ name ++ " = vec![0.0; ".toList ++ numeral length ++ "];".toList
  | python => name ++ " = zeros(".toList ++ numeral length ++ [')']

def parameterEntry (lang : Language) (name : Text) : Text :=
  "self.parameters[".toList ++ lang.quoted name ++ [']']

def dictionary (lang : Language) (entries : List (Text × Binary64)) : Text :=
  ['\x7b'] ++ commaSeparated (entries.map fun (key, x) =>
    lang.quoted key ++ ": ".toList ++ number x) ++ ['\x7d']

end Language

end MotionExport
