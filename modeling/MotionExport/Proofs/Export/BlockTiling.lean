import MotionExport.Proofs.Export.CursorReading
import MotionExport.Proofs.Export.LogParts
import MotionExport.Proofs.Export.StatementRange

/-! # Blocks are tiled by statements

The blocks of constants, of write statements and of evaluated outputs are cut without gaps into the
ranges of their statements. Every range makes one record, but for the ranges of write statements,
which name the outputs.
-/

namespace MotionExport

/-- The ranges follow each other from the first line on, up to a blank line or the end of the
file. -/
def TilesBlock (ranges : List StatementRange) (lines : List Line) : Prop :=
  ∃ rest, lines = ranges.flatMap StatementRange.lines ++ rest ∧ ∀ l ∈ rest.head?, l.trimmed = []

namespace TilesBlock

theorem nil_of_blank {lines : List Line} (h : ∀ l ∈ lines.head?, l.trimmed = []) :
    TilesBlock [] lines := ⟨lines, rfl, h⟩

theorem cons {ranges : List StatementRange} {r : StatementRange} {line : Line} {rest : List Line}
    {used : Nat} (hr : r.lines = line :: rest.take used) (h : TilesBlock ranges (rest.drop used)) :
    TilesBlock (r :: ranges) (line :: rest) := by
  obtain ⟨behind, hd, hb⟩ := h
  refine ⟨behind, ?_, hb⟩
  calc
    line :: rest = line :: rest.take used ++ rest.drop used := by
      rw [List.cons_append, List.take_append_drop]
    _ = (r :: ranges).flatMap StatementRange.lines ++ behind := by
      rw [hd, ← hr, List.flatMap_cons, List.append_assoc]

end TilesBlock

namespace StatementRange

variable (r : StatementRange)

def writes : Bool := r.first.trimmed.startsWith EquationFile.writing

def writesOutputs : Bool := r.first.trimmed.startsWith EquationFile.writingOutputs

theorem writes_of_writesOutputs (h : r.writesOutputs = true) : r.writes = true := by
  rw [writesOutputs, Text.startsWith, List.isPrefixOf_iff_prefix] at h
  rw [writes, Text.startsWith, List.isPrefixOf_iff_prefix]
  exact List.IsPrefix.trans (by decide) h

end StatementRange

namespace EquationFile

variable {mode : Terminator} {s : FileSection} {lines : List Line}
  {statements : List LoggedStatement} {names : List Text}

theorem exists_ranges_of_block (h : block mode s lines = .ok statements) :
    ∃ ranges, TilesBlock ranges lines ∧ statements = ranges.map (·.logged mode s) := by
  fun_induction block mode s lines generalizing statements with
  | case1 =>
    cases h
    exact ⟨[], .nil_of_blank (by simp), rfl⟩
  | case2 line rest hb =>
    cases h
    exact ⟨[], .nil_of_blank (by simpa using hb), rfl⟩
  | case3 line rest hb ih =>
    obtain ⟨⟨statement, used⟩, hs, h⟩ := bind_eq_ok_iff.mp h
    obtain ⟨later, hl, h⟩ := bind_eq_ok_iff.mp h
    cases h
    obtain ⟨r, hf, hr, rfl⟩ := exists_range_of_statementAt hs hb
    obtain ⟨ranges, ht, rfl⟩ := ih used hl
    exact ⟨r :: ranges, ht.cons hr, by rw [List.map_cons, StatementRange.logged, hf]⟩

theorem exists_ranges_of_writeBlock (h : writeBlock mode lines = .ok (names, statements)) :
    ∃ ranges, TilesBlock ranges lines ∧
      names = (ranges.filter (·.writesOutputs)).flatMap (writtenNames <| mode.finish ·.text) ∧
      statements = (ranges.filter (!·.writes)).map (·.logged mode .writeOutput) := by
  fun_induction writeBlock mode lines generalizing names statements with
  | case1 =>
    cases h
    exact ⟨[], .nil_of_blank (by simp), rfl, rfl⟩
  | case2 line rest hb =>
    cases h
    exact ⟨[], .nil_of_blank (by simpa using hb), rfl, rfl⟩
  | case3 line rest hb ih =>
    obtain ⟨⟨statement, used⟩, hs, h⟩ := bind_eq_ok_iff.mp h
    obtain ⟨⟨later, more⟩, hl, h⟩ := bind_eq_ok_iff.mp h
    obtain ⟨r, rfl, hr, rfl⟩ := exists_range_of_statementAt hs hb
    obtain ⟨ranges, ht, rfl, rfl⟩ := ih used hl
    refine ⟨r :: ranges, ht.cons hr, ?_⟩
    dsimp only at h
    split at h
    · rename_i ho
      replace ho : r.writesOutputs = true := ho
      have hw := r.writes_of_writesOutputs ho
      cases h
      exact ⟨by simp [ho], by simp [hw]⟩
    · rename_i ho
      replace ho : ¬ r.writesOutputs = true := ho
      split at h
      · rename_i hw
        replace hw : r.writes = true := hw
        cases h
        exact ⟨by simp [ho], by simp [hw]⟩
      · rename_i hw
        replace hw : ¬ r.writes = true := hw
        cases h
        exact ⟨by simp [ho], by simp [hw, StatementRange.logged]⟩

end EquationFile

/-- The blocks of the file are tiled, and their sections of the log record the statements that tile
them, each once and in order, and nothing else. -/
structure BlocksTiled (mode : Terminator) (file : List Line) (log : StatementLog) : Prop where
  constants : ∃ body ranges, FollowsMarker .constants file body ∧ TilesBlock ranges body ∧
    log.inSection .constants = ranges.map (·.logged mode .constants)
  evaluated : ∃ body ranges, FollowsMarker .evaluateOutput file body ∧ TilesBlock ranges body ∧
    log.inSection .evaluateOutput = ranges.map (·.logged mode .evaluateOutput)
  written : ∃ body ranges, FollowsMarker .writeOutput file body ∧ TilesBlock ranges body ∧
    log.inSection .writeOutput = (ranges.filter (!·.writes)).map (·.logged mode .writeOutput) ∧
    log.outputNames = (ranges.filter (·.writesOutputs)).flatMap
      (EquationFile.writtenNames <| mode.finish ·.text)

/-- A log that has been read tiles the blocks of its file. The cursor may stand anywhere. -/
theorem blocks_tiled_of_log {settings : ExportSettings} {c : Cursor} {log : StatementLog}
    (h : c.log settings = .ok log) : BlocksTiled settings.terminator c.file log := by
  rw [Cursor.log_eq] at h
  obtain ⟨p⟩ := nonempty_logParts h
  constructor
  · obtain ⟨ranges, ht, hs⟩ := EquationFile.exists_ranges_of_block p.constants_read
    exact ⟨_, ranges, p.constants_behind, ht, p.inSection_constants.trans hs⟩
  · obtain ⟨ranges, ht, hs⟩ := EquationFile.exists_ranges_of_block p.evaluated_read
    exact ⟨_, ranges, p.evaluated_behind, ht, p.inSection_evaluateOutput.trans hs⟩
  · obtain ⟨ranges, ht, hn, hs⟩ := EquationFile.exists_ranges_of_writeBlock p.written_read
    exact ⟨_, ranges, p.written_behind, ht, p.inSection_writeOutput.trans hs, hn⟩

/-- A file with wrapped statements, a specified input and two write statements. -/
def wrappedFile : List Text :=
  ["double z[3],g;".toList, "/* 0 MAIN 0 */".toList,
    "/* Evaluate constants */".toList, "  z[1] = g +".toList, [], "    2;".toList,
    "k = 1;".toList, [],
    "/* Update variables after integration step */".toList, [],
    "/* Quantities to be specified */".toList, "u = 1 +".toList, [], "  k;".toList,
    "v = 2;".toList, [], "xp = z[1];".toList,
    "/* Update derivative array prior to integration step */".toList,
    "/* Write output to screen and to output file(s) */".toList,
    "writef(Fptr[1], a, x,".toList, "  y, _NAN);".toList, "writef(stdout);".toList,
    "e = x;".toList, [],
    "/* Evaluate output quantities */".toList]

def wrappedLog : StatementLog where
  globals := ["z[3]".toList, "g".toList]
  outputNames := ["x".toList, "y".toList]
  statements := [⟨.constants, "z[1] = g +2".toList, 4⟩, ⟨.constants, "k = 1".toList, 7⟩,
    ⟨.specified, "u = 1 +k".toList, 12⟩, ⟨.specified, "v = 2".toList, 15⟩,
    ⟨.motion, "xp = z[1]".toList, 17⟩, ⟨.writeOutput, "e = x".toList, 23⟩]

theorem log_wrappedFile :
    Cursor.log { equationHeader := 0 } ⟨wrappedFile, 5⟩ = .ok wrappedLog := by
  decide +kernel

theorem blocks_tiled_wrappedLog :
    Cursor.log { equationHeader := 0 } ⟨wrappedFile, 5⟩ = .ok wrappedLog ∧
      BlocksTiled .strip (Line.numbered 1 wrappedFile) wrappedLog :=
  ⟨log_wrappedFile, blocks_tiled_of_log log_wrappedFile⟩

end MotionExport
