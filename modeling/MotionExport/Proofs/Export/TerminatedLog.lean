import MotionExport.Export.EquationFile
import MotionExport.Proofs.Outcome
import MotionExport.Proofs.Text.Ending

/-! # Logs with and without terminators

Whether terminators are kept decides nothing while a file is read. The log with terminators is the
log without them, with a semicolon behind every statement, and the errors are the same.
-/

namespace MotionExport

def terminated (statement : Text) : Text := statement ++ [';']

def LoggedStatement.terminated (e : LoggedStatement) : LoggedStatement :=
  { e with statement := MotionExport.terminated e.statement }

def StatementLog.terminated (log : StatementLog) : StatementLog :=
  { log with statements := log.statements.map LoggedStatement.terminated }

namespace EquationFile

theorem finish_of_endsStatement {statement : Text} (h : endsStatement statement = true) :
    Terminator.keep.finish statement = terminated (Terminator.strip.finish statement) := by
  obtain ⟨t, rfl⟩ := Text.endsWith_iff.mp h
  rw [Terminator.finish, Terminator.finish, List.dropLast_concat, terminated]

/-- The terminator stands in the last field of a statement, which names no output. -/
theorem writtenNames_terminated (statement : Text) :
    writtenNames (terminated statement) = writtenNames statement := by
  obtain ⟨pieces, last, hs, ht⟩ :=
    Text.splitOn_concat (t := statement) (c := ';') (a := ',') (by decide)
  rw [writtenNames, writtenNames, terminated, hs, ht]
  simp

theorem matched_statementAt (line : Line) (rest : List Line) :
    Matched Eq (fun keep strip => keep = (terminated strip.1, strip.2))
      (statementAt .keep line rest) (statementAt .strip line rest) := by
  unfold statementAt
  cases h : gatherStatement line.text (rest.map (·.text)) with
  | none => exact .error rfl
  | some r => exact .ok (by rw [finish_of_endsStatement (complete_of_gather h)])

/-- The statements of two runs differ by their terminators. -/
def SameStatements (keep strip : List LoggedStatement) : Prop :=
  keep = strip.map LoggedStatement.terminated

theorem matched_block (s : FileSection) (lines : List Line) :
    Matched Eq SameStatements (block .keep s lines) (block .strip s lines) := by
  fun_induction block .strip s lines with
  | case1 =>
    rw [block]
    exact .ok rfl
  | case2 line rest hb =>
    rw [block, if_pos hb]
    exact .ok rfl
  | case3 line rest hb ih =>
    rw [block, if_neg hb]
    refine (matched_statementAt line rest).bind ?_
    rintro _ ⟨statement, used⟩ rfl
    refine (ih used).bind ?_
    rintro _ statements rfl
    exact .ok rfl

theorem matched_dynamics (specified : Bool) (lines : List Line) :
    Matched Eq SameStatements (dynamics .keep specified lines)
      (dynamics .strip specified lines) := by
  fun_induction dynamics .strip specified lines with
  | case1 =>
    rw [dynamics]
    exact .error rfl
  | case2 _ line rest hm =>
    rw [dynamics, if_pos hm]
    exact .ok rfl
  | case3 _ line rest hm hb ih =>
    rw [dynamics, if_neg hm, if_pos hb]
    exact ih
  | case4 _ line rest hm hb ho ih =>
    rw [dynamics, if_neg hm, if_neg hb, if_pos ho]
    exact ih
  | case5 specified line rest hm hb ho ih =>
    rw [dynamics, if_neg hm, if_neg hb, if_neg ho]
    refine (matched_statementAt line rest).bind ?_
    rintro _ ⟨statement, used⟩ rfl
    refine (ih used).bind ?_
    rintro _ statements rfl
    exact .ok rfl

theorem matched_dynamicsAfterBlank (lines : List Line) :
    Matched Eq SameStatements (dynamicsAfterBlank .keep lines)
      (dynamicsAfterBlank .strip lines) := by
  unfold dynamicsAfterBlank
  split
  · exact .error rfl
  · exact matched_dynamics false _

theorem matched_writeBlock (lines : List Line) :
    Matched Eq (fun keep strip => keep = (strip.1, strip.2.map LoggedStatement.terminated))
      (writeBlock .keep lines) (writeBlock .strip lines) := by
  fun_induction writeBlock .strip lines with
  | case1 =>
    rw [writeBlock]
    exact .ok rfl
  | case2 line rest hb =>
    rw [writeBlock, if_pos hb]
    exact .ok rfl
  | case3 line rest hb ih =>
    rw [writeBlock, if_neg hb]
    refine (matched_statementAt line rest).bind ?_
    rintro _ ⟨statement, used⟩ rfl
    refine (ih used).bind ?_
    rintro _ ⟨names, statements⟩ rfl
    dsimp only
    split
    · exact .ok (by rw [writtenNames_terminated])
    · split
      · exact .ok rfl
      · exact .ok rfl

end EquationFile

open EquationFile

theorem matched_ofLines (settings : ExportSettings) (lines : List Text) :
    Matched Eq (fun keep strip => keep = strip.terminated)
      (StatementLog.ofLines { settings with terminator := .keep } lines)
      (StatementLog.ofLines { settings with terminator := .strip } lines) := by
  unfold StatementLog.ofLines
  split
  · exact .error rfl
  · refine (Matched.refl (fun _ => rfl) _).bind ?_
    rintro globals _ rfl
    refine (Matched.refl (fun _ => rfl) _).bind ?_
    rintro constantLines _ rfl
    refine (matched_block .constants constantLines).bind ?_
    rintro _ constants rfl
    refine (Matched.refl (fun _ => rfl) _).bind ?_
    rintro dynamicLines _ rfl
    refine (matched_dynamicsAfterBlank dynamicLines).bind ?_
    rintro _ dynamics rfl
    refine (Matched.refl (fun _ => rfl) _).bind ?_
    rintro writeLines _ rfl
    refine (matched_writeBlock writeLines).bind ?_
    rintro _ ⟨names, written⟩ rfl
    refine (Matched.refl (fun _ => rfl) _).bind ?_
    rintro evaluateLines _ rfl
    refine (matched_block .evaluateOutput evaluateLines).bind ?_
    rintro _ evaluated rfl
    exact .ok (by simp [StatementLog.terminated])

end MotionExport
