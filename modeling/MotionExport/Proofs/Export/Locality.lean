import MotionExport.Proofs.Export.LogParts
import MotionExport.Proofs.Export.StatementRange

/-! # What follows a section does not matter

A reader that has found the end of its section takes nothing from the lines behind it. The
declarations end with the banner and the dynamics with a marker, and the other sections end with a
blank line.
-/

namespace MotionExport

theorem gather_append {complete : Text → Bool} {text whole : Text} {rest : List Text} {used : Nat}
    (h : gather complete text rest = some (whole, used)) (more : List Text) :
    gather complete text (rest ++ more) = some (whole, used) := by
  induction rest generalizing text used with
  | nil =>
    obtain ⟨hc, rfl, rfl⟩ : complete text ∧ text = whole ∧ 0 = used := by simpa [gather] using h
    exact gather_of_complete hc more
  | cons line rest ih =>
    rw [gather] at h
    rw [List.cons_append, gather]
    split at h
    · rename_i hc
      rw [if_pos hc, h]
    · rename_i hc
      obtain ⟨⟨w, n⟩, hg, he⟩ := Option.map_eq_some_iff.mp h
      obtain ⟨rfl, rfl⟩ : w = whole ∧ n + 1 = used := by simpa using he
      rw [if_neg hc, ih hg, Option.map_some]

theorem le_length_of_gather {complete : Text → Bool} {text whole : Text} {rest : List Line}
    {used : Nat} (h : gather complete text (rest.map (·.text)) = some (whole, used)) :
    used ≤ rest.length := by
  simpa using (eq_of_gather h).2

namespace Declarations

variable {lines : List Line} {names : List Text}

theorem globals_append (h : globals lines = .ok names) (more : List Line) :
    globals (lines ++ more) = .ok names := by
  fun_induction globals lines generalizing names with
  | case1 => contradiction
  | case2 line rest hm =>
    rw [List.cons_append, globals, if_pos hm]
    exact h
  | case3 line rest hm hd ih =>
    rw [List.cons_append, globals, if_neg hm, hd]
    exact ih h
  | case4 line rest hm start hd hg =>
    have hg : gather isComplete start (rest.map (·.text)) = none := by simpa using hg
    rw [hg] at h
    contradiction
  | case5 line rest hm start hd declaration used hg ih =>
    have hg : gather isComplete start (rest.map (·.text)) = some (declaration, used) := by
      simpa using hg
    rw [hg] at h
    obtain ⟨later, hl, h⟩ := bind_eq_ok_iff.mp h
    rw [List.cons_append, globals, if_neg hm, hd]
    simp only [List.map_append, gather_append hg]
    rw [List.drop_append_of_le_length (le_length_of_gather hg), ih hl]
    exact h

/-- The declarations are read from the start of a file that reaches beyond the banner. -/
theorem globals_drop_append {names : List Text} {head : List Text} {count : Nat}
    (h : globals ((Line.numbered 1 head).drop count) = .ok names) (back : List Text) :
    count ≤ head.length ∧ globals ((Line.numbered 1 (head ++ back)).drop count) = .ok names := by
  have hlen : count ≤ head.length := by
    by_contra hlt
    rw [List.drop_eq_nil_of_le (by simpa using Nat.le_of_not_le hlt), globals] at h
    contradiction
  refine ⟨hlen, ?_⟩
  rw [Line.numbered_append, List.drop_append_of_le_length (by simpa using hlen)]
  exact globals_append h _

end Declarations

namespace EquationFile

variable {mode : Terminator} {s : FileSection} {lines rest : List Line} {line : Line}
  {statement : Text} {used : Nat} {statements : List LoggedStatement} {names : List Text}

theorem statementAt_append (h : statementAt mode line rest = .ok (statement, used))
    (more : List Line) :
    statementAt mode line (rest ++ more) = .ok (statement, used) ∧
      (rest ++ more).drop used = rest.drop used ++ more := by
  unfold statementAt at h ⊢
  split at h
  · contradiction
  · rename_i whole n hg
    obtain ⟨rfl, rfl⟩ : mode.finish whole = statement ∧ n = used := by simpa using h
    rw [List.map_append, gatherStatement, gather_append hg]
    exact ⟨rfl, List.drop_append_of_le_length (le_length_of_gather hg)⟩

/-- A blank line at the end belongs to no statement. -/
theorem endsBlank_of_statementAt (h : statementAt mode line rest = .ok (statement, used))
    (hb : line.trimmed ≠ []) (hend : ∃ l ∈ (line :: rest).getLast?, l.trimmed = []) :
    ∃ l ∈ (rest.drop used).getLast?, l.trimmed = [] := by
  -- The last line of the statement ends in a semicolon, so a blank line stands behind it.
  obtain ⟨r, -, hr, -⟩ := exists_range_of_statementAt h hb
  have hsplit : line :: rest = r.lines ++ rest.drop used := by
    rw [hr, List.cons_append, List.take_append_drop]
  obtain ⟨l, hl, hblank⟩ := hend
  rw [hsplit] at hl
  cases hd : rest.drop used with
  | nil =>
    rw [hd, List.append_nil, StatementRange.lines, List.getLast?_concat] at hl
    cases hl
    have hends := r.last_ends
    rw [hblank] at hends
    contradiction
  | cons next more =>
    rw [hd, List.getLast?_append_of_ne_nil _ (List.cons_ne_nil next more)] at hl
    exact ⟨l, hl, hblank⟩

theorem block_append (h : block mode s lines = .ok statements)
    (hend : ∃ l ∈ lines.getLast?, l.trimmed = []) (more : List Line) :
    block mode s (lines ++ more) = .ok statements := by
  fun_induction block mode s lines generalizing statements with
  | case1 => simp at hend
  | case2 line rest hb =>
    rw [List.cons_append, block, if_pos hb]
    exact h
  | case3 line rest hb ih =>
    obtain ⟨⟨statement, used⟩, hs, h⟩ := bind_eq_ok_iff.mp h
    obtain ⟨later, hl, h⟩ := bind_eq_ok_iff.mp h
    obtain ⟨hmore, hdrop⟩ := statementAt_append hs more
    rw [List.cons_append, block, if_neg hb]
    refine bind_eq_ok_iff.mpr ⟨_, hmore, bind_eq_ok_iff.mpr ⟨later, ?_, h⟩⟩
    rw [hdrop]
    exact ih used hl (endsBlank_of_statementAt hs hb hend)

theorem writeBlock_append (h : writeBlock mode lines = .ok (names, statements))
    (hend : ∃ l ∈ lines.getLast?, l.trimmed = []) (more : List Line) :
    writeBlock mode (lines ++ more) = .ok (names, statements) := by
  fun_induction writeBlock mode lines generalizing names statements with
  | case1 => simp at hend
  | case2 line rest hb =>
    rw [List.cons_append, writeBlock, if_pos hb]
    exact h
  | case3 line rest hb ih =>
    obtain ⟨⟨statement, used⟩, hs, h⟩ := bind_eq_ok_iff.mp h
    obtain ⟨⟨later, laterStatements⟩, hl, h⟩ := bind_eq_ok_iff.mp h
    obtain ⟨hmore, hdrop⟩ := statementAt_append hs more
    rw [List.cons_append, writeBlock, if_neg hb]
    refine bind_eq_ok_iff.mpr ⟨_, hmore, bind_eq_ok_iff.mpr ⟨(later, laterStatements), ?_, h⟩⟩
    rw [hdrop]
    exact ih used hl (endsBlank_of_statementAt hs hb hend)

theorem dynamics_append {specified : Bool} (h : dynamics mode specified lines = .ok statements)
    (more : List Line) : dynamics mode specified (lines ++ more) = .ok statements := by
  fun_induction dynamics mode specified lines generalizing statements with
  | case1 => contradiction
  | case2 _ line rest hm =>
    rw [List.cons_append, dynamics, if_pos hm]
    exact h
  | case3 _ line rest hm hb ih =>
    rw [List.cons_append, dynamics, if_neg hm, if_pos hb]
    exact ih h
  | case4 _ line rest hm hb ho ih =>
    rw [List.cons_append, dynamics, if_neg hm, if_neg hb, if_pos ho]
    exact ih h
  | case5 specified line rest hm hb ho ih =>
    obtain ⟨⟨statement, used⟩, hs, h⟩ := bind_eq_ok_iff.mp h
    obtain ⟨later, hl, h⟩ := bind_eq_ok_iff.mp h
    obtain ⟨hmore, hdrop⟩ := statementAt_append hs more
    rw [List.cons_append, dynamics, if_neg hm, if_neg hb, if_neg ho]
    refine bind_eq_ok_iff.mpr ⟨_, hmore, bind_eq_ok_iff.mpr ⟨later, ?_, h⟩⟩
    rw [hdrop]
    exact ih used hl

theorem dynamicsAfterBlank_append (h : dynamicsAfterBlank mode lines = .ok statements)
    (more : List Line) : dynamicsAfterBlank mode (lines ++ more) = .ok statements := by
  unfold dynamicsAfterBlank at h ⊢
  split at h
  · contradiction
  · rename_i opener rest hd
    rw [List.dropWhile_append, hd]
    exact dynamics_append h more

end EquationFile

end MotionExport
