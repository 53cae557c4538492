import MotionExport.Export.Cursor
import MotionExport.Proofs.Export.StatementRange

/-! # How many lines a statement takes

Reading a statement looks at the text that has been put together so far, and stops as soon as that
ends in a semicolon. Which lines are taken depends on the lines alone: none behind a first line that
ends in a semicolon, and otherwise those up to the first line that does.
-/

namespace MotionExport

section Gathering

variable {complete closes : Text → Bool} {text : Text}

/-- An open text is complete behind the first line that closes it, if there is one. -/
theorem gather_eq_findIdx? (hc : CompletedBy complete closes) (ho : complete text = false)
    (rest : List Text) : gather complete text rest =
      (rest.findIdx? fun line => closes line.trim).map fun i =>
        (text ++ (rest.take (i + 1)).flatMap Text.trim, i + 1) := by
  induction rest generalizing text with
  | nil => simp [gather, ho]
  | cons line rest ih =>
    have hadd : complete (text ++ line.trim) = closes line.trim := hc _ _ ho
    cases hl : closes line.trim with
    | true =>
      rw [hl] at hadd
      simp [gather, ho, gather_of_complete hadd, List.findIdx?_cons, hl]
    | false =>
      rw [hl] at hadd
      simp [gather, ho, ih hadd, List.findIdx?_cons, hl, Function.comp_def]

theorem not_complete_append (hc : CompletedBy complete closes) (ho : complete text = false)
    {lines : List Text} (h : ∀ line ∈ lines, closes line.trim = false) :
    complete (text ++ lines.flatMap Text.trim) = false := by
  induction lines generalizing text with
  | nil => simpa using ho
  | cons line lines ih =>
    obtain ⟨hline, hlines⟩ := List.forall_mem_cons.mp h
    have hadd : complete (text ++ line.trim) = false := (hc _ _ ho).trans hline
    simpa using ih hadd hlines

end Gathering

def joined (seed : Text) (lines : List Text) : Text := seed.trim ++ lines.flatMap Text.trim

/-- How many of the lines behind its first line a statement takes; none if it has no end. -/
def linesToEnd (seed : Text) (rest : List Text) : Option Nat :=
  if endsStatement seed.trim then some 0
  else (rest.findIdx? fun line => endsStatement line.trim).map (· + 1)

variable {seed : Text} {rest : List Text} {used : Nat}

/-- The text that has been put together and the single lines agree on where the statement ends. -/
theorem gatherStatement_eq (seed : Text) (rest : List Text) : gatherStatement seed rest =
    (linesToEnd seed rest).map fun used => (joined seed (rest.take used), used) := by
  unfold gatherStatement linesToEnd joined
  cases hs : endsStatement seed.trim with
  | true => simp [gather_of_complete hs]
  | false => simp [gather_eq_findIdx? completedBy_endsStatement hs, Function.comp_def]

theorem gatherStatement_of_linesToEnd (h : linesToEnd seed rest = some used) :
    gatherStatement seed rest = some (joined seed (rest.take used), used) := by
  rw [gatherStatement_eq, h]
  rfl

theorem endsStatement_joined (h : linesToEnd seed rest = some used) :
    endsStatement (joined seed (rest.take used)) = true :=
  complete_of_gather (gatherStatement_of_linesToEnd h)

theorem linesToEnd_le (h : linesToEnd seed rest = some used) : used ≤ rest.length :=
  (eq_of_gather (gatherStatement_of_linesToEnd h)).2

theorem not_endsStatement_joined {fewer : Nat}
    (h : ∀ used, linesToEnd seed rest = some used → fewer < used) :
    endsStatement (joined seed (rest.take fewer)) = false := by
  unfold linesToEnd at h
  cases hs : endsStatement seed.trim with
  | true =>
    have hlt : fewer < 0 := h 0 (by simp [hs])
    omega
  | false =>
    apply not_complete_append completedBy_endsStatement hs
    intro line hline
    simp only [hs, Bool.false_eq_true, if_false] at h
    cases hfind : rest.findIdx? fun line => endsStatement line.trim with
    | none => exact List.findIdx?_eq_none_iff.mp hfind line (List.mem_of_mem_take hline)
    | some i =>
      have hlt : fewer < i + 1 := h (i + 1) (by simp [hfind])
      -- The lines that are joined all stand in front of the one that ends the statement.
      obtain ⟨j, hj, rfl⟩ := List.getElem_of_mem hline
      obtain ⟨_, -, hbefore⟩ := List.findIdx?_eq_some_iff_getElem.mp hfind
      rw [List.length_take] at hj
      simpa using hbefore j (by omega)

namespace Cursor

/-- A statement takes no line if its first line ends in a semicolon, and otherwise the lines up to
the first one that does: with them it ends in a semicolon, and with fewer it does not. What is kept
is the text of these lines, what is stripped is this text without its last character, and the cursor
goes behind the same lines. If no line ends the statement, the place that the cursor had is
reported. -/
theorem statement_takes_fewest_lines (c : Cursor) (seed : Text) :
    match linesToEnd seed c.remaining with
    | some used =>
      used ≤ c.remaining.length ∧
      endsStatement (joined seed (c.remaining.take used)) = true ∧
      (∀ fewer < used, endsStatement (joined seed (c.remaining.take fewer)) = false) ∧
      c.statement seed .keep = .ok (joined seed (c.remaining.take used), c.advance used) ∧
      c.statement seed .strip =
        .ok ((joined seed (c.remaining.take used)).dropLast, c.advance used)
    | none =>
      (∀ used, endsStatement (joined seed (c.remaining.take used)) = false) ∧
      ∀ mode, c.statement seed mode = .error (.unfinishedStatement c.position) := by
  cases h : linesToEnd seed c.remaining with
  | some used =>
    have hg := gatherStatement_of_linesToEnd h
    refine ⟨linesToEnd_le h, endsStatement_joined h, ?fewest, ?keep, ?strip⟩
    case fewest =>
      intro fewer hlt
      apply not_endsStatement_joined
      intro used' h'
      obtain rfl : used = used' := Option.some.inj (h.symm.trans h')
      exact hlt
    case keep =>
      rw [statement, hg]
      rfl
    case strip =>
      rw [statement, hg]
      rfl
  | none =>
    have hg : gatherStatement seed c.remaining = none := by
      rw [gatherStatement_eq, h]
      rfl
    constructor
    · intro used
      apply not_endsStatement_joined
      intro used' h'
      rw [h] at h'
      contradiction
    · intro mode
      rw [statement, hg]

end Cursor

end MotionExport
