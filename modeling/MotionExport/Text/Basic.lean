import MotionExport.Text.Blank

/-! # Texts

A text is the list of its characters. This module holds the operations on texts that the readers
and writers share: lines, trimming, words, and cutting at a separator.
-/

namespace MotionExport

abbrev Text := List Char

namespace Text

/-- The text without its longest ending of characters that satisfy `p`. -/
def dropEndWhile (p : Char → Bool) (t : Text) : Text := (t.reverse.dropWhile p).reverse

def trimStart (t : Text) : Text := t.dropWhile isBlank

def trimEnd (t : Text) : Text := t.dropEndWhile isBlank

def trim (t : Text) : Text := trimEnd (trimStart t)

/-- The lines of a text. A line ends at a line feed, and a carriage return just before the feed
belongs to the line break; what follows the last feed is a line unless it is empty. -/
def lines : Text → List Text
  | [] => []
  | '\n' :: t => [] :: lines t
  | '\r' :: '\n' :: t => [] :: lines t
  | c :: t =>
    match lines t with
    | [] => [[c]]
    | l :: ls => (c :: l) :: ls

def after? : Text → Text → Option Text
  | [], t => some t
  | _ :: _, [] => none
  | a :: start, c :: t => if a = c then after? start t else none

def before? (finish t : Text) : Option Text :=
  (after? finish.reverse t.reverse).map List.reverse

theorem after?_eq_some_iff {start t rest : Text} :
    after? start t = some rest ↔ start ++ rest = t := by
  induction start generalizing t with
  | nil => simp [after?, eq_comm]
  | cons a start ih =>
    cases t with
    | nil => simp [after?]
    | cons c t => by_cases h : a = c <;> simp [after?, h, ih]

theorem before?_eq_some_iff {finish t rest : Text} :
    before? finish t = some rest ↔ rest ++ finish = t := by
  simp only [before?, Option.map_eq_some_iff, after?_eq_some_iff]
  constructor
  · rintro ⟨r, hr, rfl⟩
    simpa using congrArg List.reverse hr
  · rintro rfl
    exact ⟨rest.reverse, by simp, by simp⟩

/-- What stands before and after the first occurrence of `separator`. -/
def splitOnce (separator : Text) : Text → Option (Text × Text)
  | [] => if separator = [] then some ([], []) else none
  | c :: t =>
    match after? separator (c :: t) with
    | some rest => some ([], rest)
    | none => (splitOnce separator t).map fun (before, after) => (c :: before, after)

theorem append_of_splitOnce {separator t before after : Text}
    (h : splitOnce separator t = some (before, after)) : before ++ separator ++ after = t := by
  induction t generalizing before with
  | nil => grind [splitOnce]
  | cons c t ih =>
    simp only [splitOnce] at h
    split at h
    · rename_i rest hrest
      obtain ⟨rfl, rfl⟩ : [] = before ∧ rest = after := by simpa using h
      exact after?_eq_some_iff.mp hrest
    · simp only [Option.map_eq_some_iff, Prod.exists, Prod.mk.injEq] at h
      obtain ⟨b, _, hs, rfl, rfl⟩ := h
      simpa using ih hs

/-- The maximal runs of characters that are not blank. -/
def words : Text → List Text
  | [] => []
  | c :: t =>
    if isBlank c then words t
    else
      match t, words t with
      | [], _ => [[c]]
      | _, [] => [[c]]
      | d :: _, w :: ws => if isBlank d then [c] :: w :: ws else (c :: w) :: ws

def startsWith (t start : Text) : Bool := start.isPrefixOf t

def endsWith (t : Text) (c : Char) : Bool := t.getLast? == some c

def lookup? {α : Type} (key : Text) : List (Text × α) → Option α
  | [] => none
  | (k, a) :: rest => if k = key then some a else lookup? key rest

end Text

end MotionExport
