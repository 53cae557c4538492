import Mathlib.Data.List.Flatten
import Mathlib.Data.List.Infix
import MotionExport.Latex.Listing
import MotionExport.Proofs.Text.Pieces

/-! # Published lines

What each line of a listing adds to the published one. Blank lines and input lines are copied, and a
line that opens a result adds the whole result in one line. A result that is ended by the opening of
another one is lost, and nothing else is.
-/

namespace MotionExport

namespace Latex

def opensResult (line : Text) : Bool := line.startsWith "->".toList

def isCopied (line : Text) : Bool := line.trim = [] || isInputLine line.trim

/-- A line that goes on with the result before it, if there is one. -/
def continuesResult (line : Text) : Bool := !opensResult line && !isCopied line

/-- The result that opens in `line`, joined with the lines in which it goes on. -/
def joinedResult (line : Text) (rest : List Text) : Text :=
  line.trim ++ (rest.takeWhile continuesResult).flatMap Text.trim

def opensNext (lines : List Text) : Bool :=
  (lines.dropWhile continuesResult).head?.any opensResult

/-- The first of some lines opens a result that is ended by the opening of another one. -/
def losesResult : List Text → Bool
  | [] => false
  | line :: rest => opensResult line && opensNext rest

section Lines

variable {line : Text} {rest : List Text}

theorem isCopied_of_opensResult (h : opensResult line = true) : isCopied line = false := by
  obtain ⟨t, rfl⟩ : "->".toList <+: line := List.isPrefixOf_iff_prefix.mp h
  obtain ⟨s, hs⟩ : ∃ s, Text.trim ("->".toList ++ t) = '-' :: s :=
    Text.exists_trim_cons_eq (by decide)
  rw [isCopied, hs]
  rfl

theorem continuesResult_of_isCopied (h : isCopied line = true) : continuesResult line = false := by
  rw [continuesResult, h, Bool.not_true, Bool.and_false]

theorem continuesResult_of_opensResult (h : opensResult line = true) :
    continuesResult line = false := by
  rw [continuesResult, h, Bool.not_true, Bool.false_and]

theorem opensNext_cons_of_continuesResult (h : continuesResult line = true) :
    opensNext (line :: rest) = opensNext rest := by
  rw [opensNext, List.dropWhile_cons_of_pos h, opensNext]

theorem opensNext_cons (h : continuesResult line = false) :
    opensNext (line :: rest) = opensResult line := by
  rw [opensNext, List.dropWhile_cons_of_neg (by simp [h]), List.head?_cons, Option.any_some]

end Lines

section Publishing

variable (substituteMagnitude : Bool)

/-- What the first of some lines adds to the published listing. -/
def publishedOf : List Text → List Text
  | [] => []
  | line :: rest =>
    if opensResult line then [ofResult substituteMagnitude (joinedResult line rest)]
    else if isCopied line then [line]
    else []

def keptOf (lines : List Text) : List Text :=
  (lines.tails.filter (!losesResult ·)).flatMap (publishedOf substituteMagnitude)

/-- What becomes of a result that has been read up to some lines: it goes on in the first of them,
and is lost if another result opens behind those. -/
def finishedBefore (result : Option Text) (lines : List Text) : List Text :=
  if opensNext lines then []
  else finished substituteMagnitude
    (result.map (· ++ (lines.takeWhile continuesResult).flatMap Text.trim))

variable {substituteMagnitude} {line : Text} {rest : List Text}

theorem keptOf_cons : keptOf substituteMagnitude (line :: rest) =
    (if losesResult (line :: rest) then []
      else publishedOf substituteMagnitude (line :: rest)) ++ keptOf substituteMagnitude rest := by
  rw [keptOf, List.tails_cons, List.filter_cons]
  cases losesResult (line :: rest) with
  | false => rfl
  | true => rfl

theorem publishLines_cons (result : Option Text) :
    publishLines substituteMagnitude result (line :: rest) =
      if isCopied line then
        finished substituteMagnitude result ++ line :: publishLines substituteMagnitude none rest
      else if opensResult line then publishLines substituteMagnitude (some line.trim) rest
      else publishLines substituteMagnitude (result.map (· ++ line.trim)) rest := rfl

theorem finishedBefore_cons (result : Option Text) :
    finishedBefore substituteMagnitude result (line :: rest) =
      if isCopied line then finished substituteMagnitude result
      else if opensResult line then []
      else finishedBefore substituteMagnitude (result.map (· ++ line.trim)) rest := by
  cases hopens : opensResult line with
  | true =>
    rw [finishedBefore, opensNext_cons (continuesResult_of_opensResult hopens), if_pos hopens,
      isCopied_of_opensResult hopens]
    rfl
  | false =>
    cases hcopied : isCopied line with
    | true =>
      have hends := continuesResult_of_isCopied hcopied
      rw [finishedBefore, opensNext_cons hends, hopens,
        List.takeWhile_cons_of_neg (by simp [hends])]
      simp
    | false =>
      have hgoes : continuesResult line = true := by rw [continuesResult, hopens, hcopied]; rfl
      rw [finishedBefore, opensNext_cons_of_continuesResult hgoes, List.takeWhile_cons_of_pos hgoes]
      simp [finishedBefore, Function.comp_def]

/-- What is published of some lines is the end of the result before them, and then what each of
them adds. -/
theorem publishLines_eq (result : Option Text) (lines : List Text) :
    publishLines substituteMagnitude result lines =
      finishedBefore substituteMagnitude result lines ++ keptOf substituteMagnitude lines := by
  induction lines generalizing result with
  | nil => simp [publishLines, finishedBefore, opensNext, keptOf, publishedOf]
  | cons line rest ih =>
    rw [publishLines_cons, finishedBefore_cons, keptOf_cons, losesResult, publishedOf, ih, ih, ih]
    cases hopens : opensResult line with
    | true =>
      rw [isCopied_of_opensResult hopens]
      rfl
    | false =>
      cases isCopied line with
      | true => simp [finishedBefore, finished]
      | false => rfl

theorem flatMap_filter_eq_iff {α β : Type} {p : α → Bool} {f : α → List β} {l : List α} :
    (l.filter p).flatMap f = l.flatMap f ↔ ∀ a ∈ l, p a = false → f a = [] := by
  have hfilter : (l.filter p).flatMap f = l.flatMap fun a => if p a then f a else [] := by
    induction l with
    | nil => rfl
    | cons a l ih =>
      rw [List.filter_cons, List.flatMap_cons, ← ih]
      split
      · rfl
      · rfl
  rw [hfilter, Text.flatMap_eq_flatMap_iff]
  · refine forall₂_congr fun a _ => ?_
    cases p a with
    | true => simp
    | false => simp [eq_comm]
  · intro a _
    split
    · exact List.Sublist.refl _
    · exact List.nil_sublist _

theorem publishedOf_ne_nil {lines : List Text} (h : losesResult lines = true) :
    publishedOf substituteMagnitude lines ≠ [] := by
  cases lines with
  | nil => contradiction
  | cons line rest =>
    obtain ⟨hopens, -⟩ := Bool.and_eq_true_iff.mp h
    rw [publishedOf, if_pos hopens]
    exact List.cons_ne_nil _ _

end Publishing

def fullListing (substituteMagnitude : Bool) (listing : Text) : Text :=
  (listing.lines.tails.flatMap (publishedOf substituteMagnitude)).flatMap (· ++ ['\n'])

/-- Every line adds to the published listing what it should, in order, unless it opens a result that
is ended by the opening of another one. No result is lost if and only if there is no such line. -/
theorem publish_keeps_results (substituteMagnitude : Bool) (listing : Text) :
    publish substituteMagnitude listing =
        ((listing.lines.tails.filter (!losesResult ·)).flatMap
          (publishedOf substituteMagnitude)).flatMap (· ++ ['\n']) ∧
      (publish substituteMagnitude listing = fullListing substituteMagnitude listing ↔
        ∀ lines ∈ listing.lines.tails, losesResult lines = false) := by
  have hkept : publish substituteMagnitude listing =
      (keptOf substituteMagnitude listing.lines).flatMap (· ++ ['\n']) := by
    have hnone : finishedBefore substituteMagnitude none listing.lines = [] := by
      simp [finishedBefore, finished]
    rw [publish, publishLines_eq, hnone, List.nil_append]
  refine ⟨hkept, ?_⟩
  rw [hkept, keptOf, fullListing, List.flatMap_assoc, List.flatMap_assoc, flatMap_filter_eq_iff]
  refine forall₂_congr fun lines _ => ?_
  cases hloses : losesResult lines with
  | false => simp
  | true =>
    have hne : publishedOf substituteMagnitude lines ≠ [] := publishedOf_ne_nil hloses
    obtain ⟨t, ts, hadds⟩ := List.exists_cons_of_ne_nil hne
    simp [hadds]

def adjacentResults : Text := "-> (1) A = 1\n-> (2) B = 2\n".toList

/-- Of two results with nothing between them the first is lost. -/
theorem publish_adjacentResults :
    publish false adjacentResults = "-> (2) B = 2\n".toList ∧
      fullListing false adjacentResults = adjacentResults ∧
      publish false adjacentResults ≠ fullListing false adjacentResults := by
  decide +kernel

end Latex

end MotionExport
