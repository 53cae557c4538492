import MotionExport.Text.Basic

/-! # Tokens

Expressions are looked at only as a row of tokens: identifiers, numbers, quoted texts and single
characters. The tokens of a text, written one after the other, are the text.
-/

namespace MotionExport

inductive TokenKind where
  | identifier
  | number
  | quoted
  | punctuation
  deriving DecidableEq

structure Token where
  kind : TokenKind
  text : Text
  deriving DecidableEq

namespace Token

def isMark (t : Token) (c : Char) : Bool := t.kind = .punctuation && t.text = [c]

def isIdentifier (t : Token) : Bool := t.kind = .identifier

def startsIdentifier (c : Char) : Bool := c.isAlpha || c = '_'

def continuesIdentifier (c : Char) : Bool := c.isAlphanum || c = '_'

/-- The characters of `t` that satisfy `p` up to the first that does not, and the others. -/
def span (p : Char → Bool) (t : Text) : Text × Text := (t.takeWhile p, t.dropWhile p)

def digits (t : Text) : Text × Text := span Char.isDigit t

/-- The exponent at the start of a text: an `e`, a sign if there is one, and a digit at least. -/
def exponentPart : Text → Text × Text
  | e :: t =>
    if e = 'e' ∨ e = 'E' then
      match t with
      | s :: d :: rest =>
        if (s = '+' ∨ s = '-') ∧ d.isDigit then
          (e :: s :: (digits (d :: rest)).1, (digits (d :: rest)).2)
        else if s.isDigit then (e :: (digits t).1, (digits t).2)
        else ([], e :: t)
      | [d] => if d.isDigit then ([e, d], []) else ([], e :: t)
      | [] => ([], e :: t)
    else ([], e :: t)
  | [] => ([], [])

def fractionPart : Text → Text × Text
  | '.' :: t => ('.' :: (digits t).1, (digits t).2)
  | t => ([], t)

/-- The number at the start of a text: digits, a fraction and an exponent, as far as they are
there. -/
def numberPart (t : Text) : Text × Text :=
  let (whole, t) := digits t
  let (fraction, t) := fractionPart t
  let (exponent, t) := exponentPart t
  (whole ++ fraction ++ exponent, t)

/-- A quoted text runs to the next quote of its kind, or to the end. -/
def quotedPart (quote : Char) (t : Text) : Text × Text :=
  let (inside, t) := span (· ≠ quote) t
  (quote :: inside ++ t.take 1, t.drop 1)

def startsNumber (c : Char) (t : Text) : Bool :=
  c.isDigit || (c = '.' && t.head?.any Char.isDigit)

/-- The first token of a text that starts with `c`, and the rest of the text. -/
def first (c : Char) (t : Text) : Token × Text :=
  if startsIdentifier c then
    (⟨.identifier, c :: (span continuesIdentifier t).1⟩, (span continuesIdentifier t).2)
  else if startsNumber c t then (⟨.number, (numberPart (c :: t)).1⟩, (numberPart (c :: t)).2)
  else if c = '"' ∨ c = '\x27' then (⟨.quoted, (quotedPart c t).1⟩, (quotedPart c t).2)
  else (⟨.punctuation, [c]⟩, t)

section Lengths

theorem span_append (p : Char → Bool) (t : Text) : (span p t).1 ++ (span p t).2 = t :=
  List.takeWhile_append_dropWhile

theorem exponentPart_append (t : Text) : (exponentPart t).1 ++ (exponentPart t).2 = t := by
  unfold exponentPart
  grind [digits, span_append]

theorem fractionPart_append (t : Text) : (fractionPart t).1 ++ (fractionPart t).2 = t := by
  unfold fractionPart
  grind [digits, span_append]

theorem numberPart_append (t : Text) : (numberPart t).1 ++ (numberPart t).2 = t := by
  simp only [numberPart, List.append_assoc, exponentPart_append, fractionPart_append]
  exact span_append _ _

theorem quotedPart_append (quote : Char) (t : Text) :
    (quotedPart quote t).1 ++ (quotedPart quote t).2 = quote :: t := by
  simp only [quotedPart, List.cons_append, List.append_assoc, List.take_append_drop, span_append]

theorem first_append (c : Char) (t : Text) : (first c t).1.text ++ (first c t).2 = c :: t := by
  unfold first
  split
  · simp [span_append]
  split
  · simp [numberPart_append]
  split
  · simp [quotedPart_append]
  · rfl

theorem numberPart_ne_nil {c : Char} {t : Text} (h : startsNumber c t = true) :
    (numberPart (c :: t)).1 ≠ [] := by
  unfold startsNumber at h
  by_cases hc : c.isDigit
  · simp [numberPart, digits, span, hc]
  · obtain rfl : c = '.' := by simp_all
    simp [numberPart, digits, span, hc, fractionPart]

theorem first_ne_nil (c : Char) (t : Text) : (first c t).1.text ≠ [] := by
  unfold first
  split
  · simp
  split
  · rename_i h; exact numberPart_ne_nil h
  split <;> simp [quotedPart]

theorem length_first_lt (c : Char) (t : Text) : (first c t).2.length < (c :: t).length := by
  have happ := congrArg List.length (first_append c t)
  have hpos := List.length_pos_iff.mpr (first_ne_nil c t)
  simp only [List.length_append] at happ
  omega

end Lengths

def scan : Text → List Token
  | [] => []
  | c :: t => (first c t).1 :: scan (first c t).2
termination_by t => t.length
decreasing_by exact length_first_lt c t

def concat (tokens : List Token) : Text := tokens.flatMap (·.text)

/-- Nothing is lost between the tokens of a text. -/
theorem concat_scan (t : Text) : concat (scan t) = t := by
  fun_induction scan t with
  | case1 => rfl
  | case2 c t ih => rw [concat, List.flatMap_cons, ← concat, ih, first_append]

end Token

end MotionExport
