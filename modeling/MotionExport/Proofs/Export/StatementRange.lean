import MotionExport.Export.EquationFile
import MotionExport.Proofs.Text.Ending

/-! # The lines of a statement

A statement takes up a range of lines that follow each other. The range is fixed by the lines alone:
it ends with the first line that ends in a semicolon. Blank lines and markers between its first and
its last line belong to it like any other line.
-/

namespace MotionExport

/-- The lines of one statement. The first is not blank, and the last is the only one that ends in a
semicolon. -/
structure StatementRange where
  /-- The lines before the last. -/
  front : List Line
  last : Line
  front_open : ∀ l ∈ front, endsStatement l.trimmed = false
  last_ends : endsStatement last.trimmed = true
  first_ne_nil : (front.headD last).trimmed ≠ []

namespace StatementRange

variable (r : StatementRange)

def first : Line := r.front.headD r.last

def lines : List Line := r.front ++ [r.last]

def text : Text := r.lines.flatMap Line.trimmed

def logged (mode : Terminator) (s : FileSection) : LoggedStatement :=
  ⟨s, mode.finish r.text, r.first.number⟩

theorem lines_ne_nil : r.lines ≠ [] := by simp [lines]

theorem head?_lines : r.lines.head? = some r.first := by
  cases h : r.front <;> simp [lines, first, h]

theorem first_mem_lines : r.first ∈ r.lines := List.mem_of_head? r.head?_lines

end StatementRange

theorem flatMap_trim_map_text (ls : List Line) :
    (ls.map (·.text)).flatMap Text.trim = ls.flatMap Line.trimmed := List.flatMap_map ..

/-- A line completes a text that is not complete if and only if it closes what is open. -/
def CompletedBy (complete closes : Text → Bool) : Prop :=
  ∀ text line, complete text = false → complete (text ++ line) = closes line

/-- A text ends a statement when the last line added to it does. -/
theorem completedBy_endsStatement : CompletedBy endsStatement endsStatement := by
  intro text line h
  cases line with
  | nil => simpa [endsStatement, Text.not_endsWith_nil] using h
  | cons c line => exact Text.endsWith_append_of_ne_nil (by simp)

/-- Gathering stops behind the first line that closes what is open. -/
theorem lines_of_gather {complete closes : Text → Bool} (hc : CompletedBy complete closes)
    {text whole : Text} {rest : List Line} {used : Nat}
    (h : gather complete text (rest.map (·.text)) = some (whole, used))
    (ho : complete text = false) :
    ∃ front last, rest.take used = front ++ [last] ∧
      (∀ l ∈ front, closes l.trimmed = false) ∧ closes last.trimmed = true := by
  induction rest generalizing text used with
  | nil => simp [gather, ho] at h
  | cons line rest ih =>
    simp only [List.map_cons, gather, ho, Bool.false_eq_true, if_false] at h
    obtain ⟨⟨w, n⟩, hg, he⟩ := Option.map_eq_some_iff.mp h
    obtain ⟨rfl, rfl⟩ : w = whole ∧ n + 1 = used := by simpa using he
    have hadd : complete (text ++ line.trimmed) = closes line.trimmed := hc _ _ ho
    cases hl : closes line.trimmed with
    | true =>
      rw [hl] at hadd
      obtain ⟨-, rfl⟩ : text ++ line.trimmed = w ∧ 0 = n := by
        simpa using (gather_of_complete hadd _).symm.trans hg
      exact ⟨[], line, by simp, by simp, hl⟩
    | false =>
      rw [hl] at hadd
      obtain ⟨front, last, ht, hf, hlast⟩ := ih hg hadd
      exact ⟨line :: front, last, by simp [ht], by simpa [hl] using hf, hlast⟩

theorem exists_range_of_gatherStatement {line : Line} {rest : List Line} {whole : Text} {used : Nat}
    (h : gatherStatement line.text (rest.map (·.text)) = some (whole, used))
    (hb : line.trimmed ≠ []) :
    ∃ r : StatementRange, r.first = line ∧ r.lines = line :: rest.take used ∧ r.text = whole := by
  have hw := (eq_of_gather h).1
  cases hl : endsStatement line.trimmed with
  | true =>
    obtain ⟨-, rfl⟩ : line.trimmed = whole ∧ 0 = used := by
      simpa using (gather_of_complete hl _).symm.trans h
    exact ⟨⟨[], line, by simp, hl, by simpa using hb⟩, rfl, by simp [StatementRange.lines], by
      simpa [StatementRange.text, StatementRange.lines, Line.trimmed] using hw.symm⟩
  | false =>
    obtain ⟨front, last, ht, hf, hlast⟩ := lines_of_gather completedBy_endsStatement h hl
    refine ⟨⟨line :: front, last, by simpa [hl] using hf, hlast, by simpa using hb⟩, rfl,
      by simp [StatementRange.lines, ht], ?_⟩
    rw [hw, ← List.map_take, flatMap_trim_map_text, ht]
    rfl

theorem exists_range_of_statementAt {mode : Terminator} {line : Line} {rest : List Line}
    {statement : Text} {used : Nat}
    (h : EquationFile.statementAt mode line rest = .ok (statement, used))
    (hb : line.trimmed ≠ []) :
    ∃ r : StatementRange, r.first = line ∧ r.lines = line :: rest.take used ∧
      statement = mode.finish r.text := by
  unfold EquationFile.statementAt at h
  split at h
  · contradiction
  · rename_i whole n hg
    obtain ⟨rfl, rfl⟩ : mode.finish whole = statement ∧ n = used := by simpa using h
    obtain ⟨r, hf, hl, rfl⟩ := exists_range_of_gatherStatement hg hb
    exact ⟨r, hf, hl, rfl⟩

end MotionExport
