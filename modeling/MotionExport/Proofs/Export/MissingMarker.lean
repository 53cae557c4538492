import MotionExport.Proofs.Export.CursorReading
import MotionExport.Proofs.Export.Unclosed

/-! # Missing markers

An equations file is read section after section, and fails as the first section does that fails. So
a missing marker is reported as soon as it is needed, or else what has been left open by the end of
the file in search of it.
-/

namespace MotionExport

def outcome {α : Type} (x : Except ExportError α) : Except ExportError Unit := do
  let _ ← x
  .ok ()

open EquationFile

/-- The markers that a file must have, in the order in which they are needed, each with whether what
needs it succeeds. -/
def sectionOutcomes (settings : ExportSettings) (lines : List Text) :
    List (Marker × Except ExportError Unit) :=
  let mode := settings.terminator
  let all := Line.numbered 1 lines
  [(.main, outcome (Declarations.globals (all.drop settings.equationHeader))),
    (.constants, outcome (behind .constants all >>= block mode .constants)),
    (.afterStep, outcome (behind .afterStep all)),
    (.beforeStep, outcome (behind .afterStep all >>= dynamicsAfterBlank mode)),
    (.writeOutput, outcome (behind .writeOutput all >>= writeBlock mode)),
    (.evaluateOutput, outcome (behind .evaluateOutput all >>= block mode .evaluateOutput))]

variable {settings : ExportSettings} {lines : List Text} {m : Marker}

/-- A file is read if and only if all its sections are, and fails as the first of them does. -/
theorem outcome_ofLines (hlen : settings.equationHeader ≤ lines.length) :
    outcome (StatementLog.ofLines settings lines) =
      (sectionOutcomes settings lines).forM (·.2) := by
  rw [StatementLog.ofLines, if_neg (Nat.not_lt.mpr hlen), sectionOutcomes]
  simp only [outcome, List.forM_eq_forM, List.forM_cons, List.forM_nil, bind_assoc, ok_bind,
    bind_bind_self]
  rfl

theorem eq_error_of_outcome {α : Type} {x : Except ExportError α} {e : ExportError}
    (h : outcome x = .error e) : x = .error e := by
  cases x with
  | error e' => exact congrArg Except.error (Except.error.inj h)
  | ok a => cases h

theorem forM_eq_error {outcomes : List (Marker × Except ExportError Unit)} {e : ExportError}
    (hbefore : ∀ p ∈ outcomes.takeWhile (·.1 ≠ m), p.2 = .ok ())
    (h : outcomes.lookup m = some (.error e)) : outcomes.forM (·.2) = .error e := by
  induction outcomes with
  | nil => cases h
  | cons p outcomes ih =>
    obtain ⟨m', x⟩ := p
    rw [List.forM_eq_forM, List.forM_cons]
    by_cases hm : m' = m
    · subst hm
      obtain rfl : x = .error e := by simpa using h
      rfl
    · have htake : ((m', x) :: outcomes).takeWhile (·.1 ≠ m) =
          (m', x) :: outcomes.takeWhile (·.1 ≠ m) :=
        List.takeWhile_cons_of_pos (by simpa using hm)
      rw [htake, List.forall_mem_cons] at hbefore
      obtain ⟨rfl, hbefore⟩ := hbefore
      have hlookup : outcomes.lookup m = some (.error e) := by
        rwa [List.lookup_cons, beq_false_of_ne (Ne.symm hm)] at h
      exact ih hbefore hlookup

def requiredMarkers : List Marker :=
  [.main, .constants, .afterStep, .beforeStep, .writeOutput, .evaluateOutput]

def searchedLines (settings : ExportSettings) (lines : List Text) : Marker → List Text
  | .main => lines.drop settings.equationHeader
  | _ => lines

/-- All that is read before the marker is needed is read without fail. -/
def ReadsUpTo (settings : ExportSettings) (lines : List Text) (m : Marker) : Prop :=
  settings.equationHeader ≤ lines.length ∧
    ∀ p ∈ (sectionOutcomes settings lines).takeWhile (·.1 ≠ m), p.2 = .ok ()

/-- The line that is reported if the file ends inside of what the marker should have ended. A
declaration is reported at the last line of the file, and a statement at its first. -/
def leftOpen? (settings : ExportSettings) (lines : List Text) : Marker → Option Nat
  | .main =>
    (unclosed? Declarations.opens Declarations.closes
      ((Line.numbered 1 lines).drop settings.equationHeader)).map fun _ => lines.length
  | .beforeStep =>
    (unclosed? opensStatement endsStatement (dynamicsBody (Line.numbered 1 lines))).map (·.number)
  | _ => none

theorem number_of_last_numbered (lines : List Text) (count : Nat) :
    ∀ l ∈ ((Line.numbered 1 lines).drop count).getLast?, l.number = lines.length := by
  intro l hl
  have hahead : (Cursor.mk lines count).ahead = (Line.numbered 1 lines).drop count := rfl
  cases hd : (Line.numbered 1 lines).drop count with
  | nil => simp [hd] at hl
  | cons line rest =>
    rw [hd, List.getLast?_cons, Option.mem_some_iff, ← List.getLastD_eq_getLast?] at hl
    rw [← hl]
    exact Cursor.number_of_last_ahead (hahead.trans hd)

theorem isOn_of_searchedLines {ls : List Line}
    (htexts : ls.map (·.text) = searchedLines settings lines m)
    (hmissing : ∀ t ∈ searchedLines settings lines m, m.isOn t.trim = false) :
    ∀ l ∈ ls, m.isOn l.trimmed = false :=
  fun l hl => hmissing l.text (htexts ▸ List.mem_map_of_mem hl)

theorem outcome_behind_bind {α : Type} {ls : List Line}
    (hmissing : ∀ l ∈ ls, m.isOn l.trimmed = false) (f : List Line → Except ExportError α) :
    outcome (behind m ls >>= f) = .error (.markerNotFound m.text) := by
  rw [behind_eq_error hmissing]
  rfl

theorem lookup_sectionOutcomes (hrequired : m ∈ requiredMarkers)
    (hmissing : ∀ t ∈ searchedLines settings lines m, m.isOn t.trim = false)
    (hread : ReadsUpTo settings lines m) :
    (sectionOutcomes settings lines).lookup m =
      some (.error (.ofMissing m (leftOpen? settings lines m))) := by
  have hall : (Line.numbered 1 lines).map (·.text) = lines := Line.map_text_numbered 1 lines
  cases m with
  | main =>
    have hbody : ((Line.numbered 1 lines).drop settings.equationHeader).map (·.text) =
        searchedLines settings lines .main := by
      rw [List.map_drop, hall, searchedLines]
    have hglobals := Declarations.globals_eq_error (isOn_of_searchedLines hbody hmissing)
      (number_of_last_numbered lines settings.equationHeader)
    exact congrArg (some <| outcome ·) hglobals
  | constants => exact congrArg some (outcome_behind_bind (isOn_of_searchedLines hall hmissing) _)
  | afterStep =>
    exact congrArg (some <| outcome ·) (behind_eq_error (isOn_of_searchedLines hall hmissing))
  | beforeStep =>
    have hafter : outcome (behind .afterStep (Line.numbered 1 lines)) = .ok () :=
      hread.2 (.afterStep, outcome (behind .afterStep (Line.numbered 1 lines)))
        (by simp [sectionOutcomes])
    cases hb : behind .afterStep (Line.numbered 1 lines) with
    | error e =>
      rw [hb] at hafter
      cases hafter
    | ok body =>
      have hdynamics : (behind .afterStep (Line.numbered 1 lines) >>=
          dynamicsAfterBlank settings.terminator) =
          .error (.ofMissing .beforeStep (leftOpen? settings lines .beforeStep)) := by
        rw [hb, ok_bind]
        exact dynamicsAfterBlank_eq_error hb (isOn_of_searchedLines hall hmissing)
      exact congrArg (some <| outcome ·) hdynamics
  | writeOutput => exact congrArg some (outcome_behind_bind (isOn_of_searchedLines hall hmissing) _)
  | evaluateOutput =>
    exact congrArg some (outcome_behind_bind (isOn_of_searchedLines hall hmissing) _)
  | toBeSpecified => simp [requiredMarkers] at hrequired
  | wereSpecified => simp [requiredMarkers] at hrequired

namespace Cursor

/-- A file that lacks a marker is not read. The marker is reported, unless the file ends inside of a
declaration or a statement that is read in search of the marker. -/
theorem log_reports_missing_marker (c : Cursor) (hrequired : m ∈ requiredMarkers)
    (hmissing : ∀ t ∈ searchedLines settings c.lines m, m.isOn t.trim = false)
    (hread : ReadsUpTo settings c.lines m) :
    c.log settings = .error (.ofMissing m (leftOpen? settings c.lines m)) := by
  have hfails := forM_eq_error hread.2 (lookup_sectionOutcomes hrequired hmissing hread)
  rw [← outcome_ofLines hread.1] at hfails
  rw [log_eq]
  exact eq_error_of_outcome hfails

def endlessFile : List Text :=
  ["double y;".toList, "/* 0 MAIN 0 */".toList, "/* Evaluate constants */".toList,
    "k = 1;".toList, [], "/* Update variables after integration step */".toList, [],
    "y = k +".toList, "  1;".toList]

theorem log_endlessFile :
    Marker.beforeStep ∈ requiredMarkers ∧
      (∀ t ∈ searchedLines { equationHeader := 0 } endlessFile .beforeStep,
        Marker.beforeStep.isOn t.trim = false) ∧
      ReadsUpTo { equationHeader := 0 } endlessFile .beforeStep ∧
      Cursor.log { equationHeader := 0 } ⟨endlessFile, 5⟩ =
        .error (.markerNotFound Marker.beforeStep.text) := by
  have hrequired : Marker.beforeStep ∈ requiredMarkers := by decide
  have hmissing : ∀ t ∈ searchedLines { equationHeader := 0 } endlessFile .beforeStep,
      Marker.beforeStep.isOn t.trim = false := by
    decide +kernel
  have hread : ReadsUpTo { equationHeader := 0 } endlessFile .beforeStep :=
    ⟨by decide, by decide +kernel⟩
  have hclosed : leftOpen? { equationHeader := 0 } endlessFile .beforeStep = none := by
    decide +kernel
  have hlog : Cursor.log { equationHeader := 0 } ⟨endlessFile, 5⟩ = .error
      (.ofMissing .beforeStep (leftOpen? { equationHeader := 0 } endlessFile .beforeStep)) :=
    log_reports_missing_marker ⟨endlessFile, 5⟩ hrequired hmissing hread
  rw [hclosed] at hlog
  exact ⟨hrequired, hmissing, hread, hlog⟩

/-- A closing brace behind the dynamics is taken for a statement that does not end, and reported in
place of the marker. -/
theorem log_endlessFile_brace :
    Marker.beforeStep ∈ requiredMarkers ∧
      (∀ t ∈ searchedLines { equationHeader := 0 } (endlessFile ++ [['\x7d']]) .beforeStep,
        Marker.beforeStep.isOn t.trim = false) ∧
      ReadsUpTo { equationHeader := 0 } (endlessFile ++ [['\x7d']]) .beforeStep ∧
      Cursor.log { equationHeader := 0 } ⟨endlessFile ++ [['\x7d']], 5⟩ =
        .error (.unfinishedStatement 10) := by
  have hread : ReadsUpTo { equationHeader := 0 } (endlessFile ++ [['\x7d']]) .beforeStep :=
    ⟨by decide, by decide +kernel⟩
  exact ⟨by decide, by decide +kernel, hread, by decide +kernel⟩

end Cursor

end MotionExport
