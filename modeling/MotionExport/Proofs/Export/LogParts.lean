import Mathlib.Data.List.TakeWhile
import MotionExport.Export.EquationFile
import MotionExport.Proofs.Outcome

/-! # The parts of a log

A log is put together from the constants, the dynamics, the write block and the evaluation block of
a file, each read behind the first line that is its marker. Every part records statements of its own
sections only, so a section of the log is what its part has recorded.
-/

namespace MotionExport

/-- `body` is what follows the first line of `file` that is the marker. -/
def FollowsMarker (m : Marker) (file body : List Line) : Prop :=
  ∃ front line, file = front ++ line :: body ∧ m.isOn line.trimmed = true ∧
    ∀ l ∈ front, m.isOn l.trimmed = false

namespace EquationFile

variable {mode : Terminator} {s : FileSection} {lines body : List Line}
  {statements : List LoggedStatement} {names : List Text}

theorem followsMarker_of_behind {m : Marker} (h : behind m lines = .ok body) :
    FollowsMarker m lines body := by
  unfold behind at h
  split at h
  · contradiction
  · rename_i line rest hd
    obtain rfl : rest = body := by simpa using h
    refine ⟨lines.takeWhile fun l => !m.isOn l.trimmed, line, ?_, ?_, ?_⟩
    · rw [← hd, List.takeWhile_append_dropWhile]
    · have hn := List.head?_dropWhile_not (fun l => !m.isOn l.trimmed) lines
      simpa [hd] using hn
    · intro l hl
      simpa using List.mem_takeWhile_imp hl

theorem origin_of_block (h : block mode s lines = .ok statements) :
    ∀ e ∈ statements, e.origin = s := by
  fun_induction block mode s lines generalizing statements with
  | case1 => cases h; simp
  | case2 => cases h; simp
  | case3 line rest _ ih =>
    obtain ⟨⟨statement, used⟩, -, h⟩ := bind_eq_ok_iff.mp h
    obtain ⟨later, hl, h⟩ := bind_eq_ok_iff.mp h
    cases h
    simpa using ih used hl

theorem origin_of_dynamics {specified : Bool}
    (h : dynamics mode specified lines = .ok statements) :
    ∀ e ∈ statements, e.origin = .motion ∨ e.origin = .specified := by
  fun_induction dynamics mode specified lines generalizing statements with
  | case1 => contradiction
  | case2 => cases h; simp
  | case3 _ _ _ _ _ ih => exact ih h
  | case4 _ _ _ _ _ _ ih => exact ih h
  | case5 specified line rest _ _ _ ih =>
    obtain ⟨⟨statement, used⟩, -, h⟩ := bind_eq_ok_iff.mp h
    obtain ⟨later, hl, h⟩ := bind_eq_ok_iff.mp h
    cases h
    have hlater := ih used hl
    cases specified <;> simpa using hlater

theorem origin_of_dynamicsAfterBlank (h : dynamicsAfterBlank mode lines = .ok statements) :
    ∀ e ∈ statements, e.origin = .motion ∨ e.origin = .specified := by
  unfold dynamicsAfterBlank at h
  split at h
  · contradiction
  · exact origin_of_dynamics h

theorem origin_of_writeBlock (h : writeBlock mode lines = .ok (names, statements)) :
    ∀ e ∈ statements, e.origin = .writeOutput := by
  fun_induction writeBlock mode lines generalizing names statements with
  | case1 => cases h; simp
  | case2 => cases h; simp
  | case3 line rest _ ih =>
    obtain ⟨⟨statement, used⟩, -, h⟩ := bind_eq_ok_iff.mp h
    obtain ⟨⟨later, more⟩, hl, h⟩ := bind_eq_ok_iff.mp h
    have hmore := ih used hl
    dsimp only at h
    split at h
    · cases h; exact hmore
    · split at h
      · cases h; exact hmore
      · cases h; simpa using hmore

end EquationFile

open EquationFile

theorem filter_of_origin {statements : List LoggedStatement} {s : FileSection}
    (h : ∀ e ∈ statements, e.origin = s) (q : FileSection → Bool) :
    statements.filter (fun e => q e.origin) = if q s then statements else [] := by
  split
  · rename_i hq
    exact List.filter_eq_self.mpr fun e he => by rw [h e he, hq]
  · rename_i hq
    exact List.filter_eq_nil_iff.mpr fun e he => by rwa [h e he]

/-- What the statements of a log have been put together from. -/
structure LogParts (settings : ExportSettings) (lines : List Text) (log : StatementLog) where
  constants : List LoggedStatement
  dynamics : List LoggedStatement
  written : List LoggedStatement
  evaluated : List LoggedStatement
  statements_eq : log.statements = constants ++ dynamics ++ written ++ evaluated
  constantLines : List Line
  constants_behind : FollowsMarker .constants (Line.numbered 1 lines) constantLines
  constants_read : block settings.terminator .constants constantLines = .ok constants
  dynamicLines : List Line
  dynamics_behind : FollowsMarker .afterStep (Line.numbered 1 lines) dynamicLines
  dynamics_read : dynamicsAfterBlank settings.terminator dynamicLines = .ok dynamics
  writeLines : List Line
  written_behind : FollowsMarker .writeOutput (Line.numbered 1 lines) writeLines
  written_read : writeBlock settings.terminator writeLines = .ok (log.outputNames, written)
  evaluateLines : List Line
  evaluated_behind : FollowsMarker .evaluateOutput (Line.numbered 1 lines) evaluateLines
  evaluated_read : block settings.terminator .evaluateOutput evaluateLines = .ok evaluated

variable {settings : ExportSettings} {lines : List Text} {log : StatementLog}

theorem nonempty_logParts (h : StatementLog.ofLines settings lines = .ok log) :
    Nonempty (LogParts settings lines log) := by
  unfold StatementLog.ofLines at h
  split at h
  · contradiction
  · obtain ⟨globals, -, h⟩ := bind_eq_ok_iff.mp h
    obtain ⟨constantLines, hcb, h⟩ := bind_eq_ok_iff.mp h
    obtain ⟨constants, hc, h⟩ := bind_eq_ok_iff.mp h
    obtain ⟨dynamicLines, hdb, h⟩ := bind_eq_ok_iff.mp h
    obtain ⟨dynamics, hd, h⟩ := bind_eq_ok_iff.mp h
    obtain ⟨writeLines, hwb, h⟩ := bind_eq_ok_iff.mp h
    obtain ⟨⟨outputNames, written⟩, hw, h⟩ := bind_eq_ok_iff.mp h
    obtain ⟨evaluateLines, heb, h⟩ := bind_eq_ok_iff.mp h
    obtain ⟨evaluated, he, h⟩ := bind_eq_ok_iff.mp h
    cases h
    exact ⟨⟨constants, dynamics, written, evaluated, rfl,
      constantLines, followsMarker_of_behind hcb, hc,
      dynamicLines, followsMarker_of_behind hdb, hd,
      writeLines, followsMarker_of_behind hwb, hw,
      evaluateLines, followsMarker_of_behind heb, he⟩⟩

namespace LogParts

variable (p : LogParts settings lines log)

theorem origin_of_mem :
    (∀ e ∈ p.constants, e.origin = .constants) ∧
      (∀ e ∈ p.dynamics, e.origin = .motion ∨ e.origin = .specified) ∧
      (∀ e ∈ p.written, e.origin = .writeOutput) ∧
      ∀ e ∈ p.evaluated, e.origin = .evaluateOutput :=
  ⟨origin_of_block p.constants_read, origin_of_dynamicsAfterBlank p.dynamics_read,
    origin_of_writeBlock p.written_read, origin_of_block p.evaluated_read⟩

theorem filter_statements (q : FileSection → Bool) :
    log.statements.filter (fun e => q e.origin) =
      (if q .constants then p.constants else []) ++ p.dynamics.filter (fun e => q e.origin) ++
        (if q .writeOutput then p.written else []) ++
        (if q .evaluateOutput then p.evaluated else []) := by
  obtain ⟨hc, -, hw, he⟩ := p.origin_of_mem
  simp only [p.statements_eq, List.filter_append, filter_of_origin hc, filter_of_origin hw,
    filter_of_origin he]

theorem inSection_eq {s : FileSection} (hm : s ≠ .motion) (hs : s ≠ .specified) :
    log.inSection s = (if .constants = s then p.constants else []) ++
      (if .writeOutput = s then p.written else []) ++
        (if .evaluateOutput = s then p.evaluated else []) := by
  have hd : p.dynamics.filter (fun e => e.origin = s) = [] := by
    refine List.filter_eq_nil_iff.mpr fun e h => ?_
    rcases p.origin_of_mem.2.1 e h with h | h <;> simp [h, hm.symm, hs.symm]
  simpa [StatementLog.inSection, hd] using p.filter_statements (· = s)

theorem inSection_constants : log.inSection .constants = p.constants := by
  simp [p.inSection_eq]

theorem inSection_writeOutput : log.inSection .writeOutput = p.written := by
  simp [p.inSection_eq]

theorem inSection_evaluateOutput : log.inSection .evaluateOutput = p.evaluated := by
  simp [p.inSection_eq]

theorem filter_motion_or_specified :
    log.statements.filter (fun e => e.origin = .motion ∨ e.origin = .specified) = p.dynamics := by
  refine (p.filter_statements fun s => s = .motion ∨ s = .specified).trans ?_
  simpa using p.origin_of_mem.2.1

end LogParts

end MotionExport
