import Mathlib.Data.List.Basic
import MotionExport.Proofs.Export.LogParts

/-! # File order

A log that has been read lists the statements of every section from the top of the file down,
whatever the order in which the sections stand in the file.
-/

namespace MotionExport

/-- Every section is listed from the top of the file down. -/
def StatementLog.InFileOrder (log : StatementLog) : Prop :=
  ∀ s, (log.inSection s).Pairwise (·.line < ·.line)

namespace EquationFile

variable {mode : Terminator} {s : FileSection} {lines : List Line}
  {statements : List LoggedStatement} {names : List Text}

theorem line_sublist_of_block (h : block mode s lines = .ok statements) :
    (statements.map (·.line)).Sublist (lines.map (·.number)) := by
  fun_induction block mode s lines generalizing statements with
  | case1 => cases h; exact List.nil_sublist _
  | case2 => cases h; exact List.nil_sublist _
  | case3 line rest _ ih =>
    obtain ⟨⟨statement, used⟩, -, h⟩ := bind_eq_ok_iff.mp h
    obtain ⟨later, hl, h⟩ := bind_eq_ok_iff.mp h
    cases h
    exact ((ih used hl).trans ((List.drop_sublist used rest).map _)).cons_cons _

theorem line_sublist_of_dynamics {specified : Bool}
    (h : dynamics mode specified lines = .ok statements) :
    (statements.map (·.line)).Sublist (lines.map (·.number)) := by
  fun_induction dynamics mode specified lines generalizing statements with
  | case1 => contradiction
  | case2 => cases h; exact List.nil_sublist _
  | case3 _ _ _ _ _ ih => exact (ih h).cons _
  | case4 _ _ _ _ _ _ ih => exact (ih h).cons _
  | case5 specified line rest _ _ _ ih =>
    obtain ⟨⟨statement, used⟩, -, h⟩ := bind_eq_ok_iff.mp h
    obtain ⟨later, hl, h⟩ := bind_eq_ok_iff.mp h
    cases h
    exact ((ih used hl).trans ((List.drop_sublist used rest).map _)).cons_cons _

theorem line_sublist_of_dynamicsAfterBlank (h : dynamicsAfterBlank mode lines = .ok statements) :
    (statements.map (·.line)).Sublist (lines.map (·.number)) := by
  unfold dynamicsAfterBlank at h
  split at h
  · contradiction
  · rename_i opener rest hd
    have hrest : rest.Sublist lines :=
      (List.sublist_cons_self opener rest).trans (hd ▸ List.dropWhile_sublist _)
    exact (line_sublist_of_dynamics h).trans (hrest.map _)

theorem line_sublist_of_writeBlock (h : writeBlock mode lines = .ok (names, statements)) :
    (statements.map (·.line)).Sublist (lines.map (·.number)) := by
  fun_induction writeBlock mode lines generalizing names statements with
  | case1 => cases h; exact List.nil_sublist _
  | case2 => cases h; exact List.nil_sublist _
  | case3 line rest _ ih =>
    obtain ⟨⟨statement, used⟩, -, h⟩ := bind_eq_ok_iff.mp h
    obtain ⟨⟨later, more⟩, hl, h⟩ := bind_eq_ok_iff.mp h
    have hmore := (ih used hl).trans ((List.drop_sublist used rest).map _)
    dsimp only at h
    split at h
    · cases h; exact hmore.cons _
    · split at h
      · cases h; exact hmore.cons _
      · cases h; exact hmore.cons_cons _

end EquationFile

open EquationFile

variable {settings : ExportSettings} {lines : List Text} {log : StatementLog}

theorem FollowsMarker.pairwise_line {m : Marker} {body : List Line}
    {statements : List LoggedStatement} (h : FollowsMarker m (Line.numbered 1 lines) body)
    (hs : (statements.map (·.line)).Sublist (body.map (·.number))) :
    statements.Pairwise (·.line < ·.line) := by
  obtain ⟨front, line, hfile, -, -⟩ := h
  have hbody : body.Sublist (Line.numbered 1 lines) := by
    rw [hfile]
    exact (List.sublist_cons_self line body).trans (List.sublist_append_right front _)
  have hnumbers := (Line.pairwise_number_numbered 1 lines).sublist hbody
  rw [← List.pairwise_map] at hnumbers ⊢
  exact hnumbers.sublist hs

theorem StatementLog.inFileOrder_of_ofLines (h : ofLines settings lines = .ok log) :
    log.InFileOrder := by
  obtain ⟨p⟩ := nonempty_logParts h
  have hdynamics : p.dynamics.Pairwise (·.line < ·.line) :=
    p.dynamics_behind.pairwise_line (line_sublist_of_dynamicsAfterBlank p.dynamics_read)
  have hpart : ∀ s, (s = .motion ∨ s = .specified) → (log.inSection s).Sublist p.dynamics := by
    intro s hs
    rw [← p.filter_motion_or_specified, inSection]
    refine List.monotone_filter_right _ fun e he => ?_
    rw [of_decide_eq_true he]
    exact decide_eq_true hs
  intro s
  cases s with
  | constants =>
    rw [p.inSection_constants]
    exact p.constants_behind.pairwise_line (line_sublist_of_block p.constants_read)
  | motion => exact hdynamics.sublist (hpart .motion (.inl rfl))
  | specified => exact hdynamics.sublist (hpart .specified (.inr rfl))
  | writeOutput =>
    rw [p.inSection_writeOutput]
    exact p.written_behind.pairwise_line (line_sublist_of_writeBlock p.written_read)
  | evaluateOutput =>
    rw [p.inSection_evaluateOutput]
    exact p.evaluated_behind.pairwise_line (line_sublist_of_block p.evaluated_read)

end MotionExport
