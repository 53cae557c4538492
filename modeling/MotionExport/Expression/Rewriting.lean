import MotionExport.Expression.Name

/-! # Rewriting of expressions

Generated modules keep the auxiliary variables and the parameters in an owner, write literals as
floating-point numbers and store the linear model in matrices of their own. Each rewriting goes
through the tokens once, puts other tokens in the place of those it is for, and leaves alone all
others.
-/

namespace MotionExport

namespace Expression

def onTokens (step : List Token → List Token) (t : Text) : Text :=
  Token.concat (step (Token.scan t))

def ownerToken : Token := ⟨.identifier, "self".toList⟩

def mark (c : Char) : Token := ⟨.punctuation, [c]⟩

section Auxiliaries

/-- A free `z` before an opening bracket stands for an auxiliary variable. -/
def isFreeAuxiliary (before : Option Token) (t : Token) (rest : List Token) : Bool :=
  t.isIdentifier && t.text = ['z'] && rest.head?.any (·.isMark '[') && !isMember before

def scopeTokens (before : Option Token) : List Token → List Token
  | [] => []
  | t :: rest =>
    if isFreeAuxiliary before t rest then
      ownerToken :: mark '.' :: t :: scopeTokens (some t) rest
    else t :: scopeTokens (some t) rest

/-- The expression with its auxiliary variables taken from the owner. -/
def scopeAuxiliaries : Text → Text := onTokens (scopeTokens none)

end Auxiliaries

section Parameters

def parameterTokens (quote : Char) (name : Text) : List Token :=
  [ownerToken, mark '.', ⟨.identifier, "parameters".toList⟩, mark '[',
    ⟨.quoted, [quote] ++ name ++ [quote]⟩, mark ']']

def lookUpTokens (names : List Text) (quote : Char) (before : Option Token) :
    List Token → List Token
  | [] => []
  | t :: rest =>
    if t.isIdentifier && names.contains t.text && !isMember before then
      parameterTokens quote t.text ++ lookUpTokens names quote (some t) rest
    else t :: lookUpTokens names quote (some t) rest

/-- The expression with its parameters taken from the owner's map, whose keys stand in `quote`. -/
def lookUpParameters (names : List Text) (quote : Char) : Text → Text :=
  onTokens (lookUpTokens names quote none)

end Parameters

section Literals

/-- The bracket depth behind a token; a closing bracket too many changes nothing. -/
def depthAfter (depth : Nat) (t : Token) : Nat :=
  if t.isMark '[' then depth + 1 else if t.isMark ']' then depth - 1 else depth

/-- A number without a point or an exponent. -/
def isWholeLiteral (t : Token) : Bool :=
  t.kind = .number && !t.text.any fun c => c = '.' || c = 'e' || c = 'E'

def widenTokens (depth : Nat) : List Token → List Token
  | [] => []
  | t :: rest =>
    let widened : Token :=
      if isWholeLiteral t && depth = 0 then ⟨.number, t.text ++ ".0".toList⟩ else t
    widened :: widenTokens (depthAfter depth t) rest

/-- The expression with its whole literals outside of brackets made floating-point ones. -/
def widenLiterals : Text → Text := onTokens (widenTokens 0)

end Literals

section Matrices

inductive IndexStyle where
  /-- `m[i][j]` -/
  | nested
  /-- `m[i, j]` -/
  | tuple
  deriving DecidableEq

namespace IndexStyle

def indexTokens (style : IndexStyle) (row column : Token) : List Token :=
  match style with
  | nested => [mark '[', row, mark ']', mark '[', column, mark ']']
  | tuple => [mark '[', row, mark ',', mark ' ', column, mark ']']

end IndexStyle

def elementIndices? : List Token → Option (Token × Token)
  | open₁ :: row :: close₁ :: open₂ :: column :: close₂ :: _ =>
    if open₁.isMark '[' && row.kind = .number && close₁.isMark ']'
      && open₂.isMark '[' && column.kind = .number && close₂.isMark ']'
    then some (row, column)
    else none
  | _ => none

def targetOf? (names targets : List Text) (name : Text) : Option Text :=
  (names.findIdx? (· = name)).bind fun i => targets[i]?

/-- Writes references to matrix elements with the target's names; the first `covered` tokens belong
to a reference that has been written already. -/
def retargetTokens (names targets : List Text) (style : IndexStyle) :
    Nat → Option Token → List Token → List Token
  | _, _, [] => []
  | covered + 1, _, t :: rest => retargetTokens names targets style covered (some t) rest
  | 0, before, t :: rest =>
    let target? :=
      if t.isIdentifier && !isMember before then targetOf? names targets t.text else none
    match target?, elementIndices? rest with
    | some target, some (row, column) =>
      Token.scan target ++ style.indexTokens row column
        ++ retargetTokens names targets style 6 (some t) rest
    | _, _ => t :: retargetTokens names targets style 0 (some t) rest

/-- The expression with its references to matrix elements written for the target. The names and
the targets are paired by their place in the lists. -/
def retargetMatrices (names targets : List Text) (style : IndexStyle) : Text → Text :=
  onTokens (retargetTokens names targets style 0 none)

end Matrices

end Expression

end MotionExport
