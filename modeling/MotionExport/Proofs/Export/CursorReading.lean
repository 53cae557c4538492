import MotionExport.Export.Reading
import MotionExport.Proofs.Outcome

/-! # Reading does not depend on the cursor

Every reader takes from the cursor what the reader of the same name takes from the numbered lines
ahead of it. A section starts with a jump to its marker, so the log is that of the file wherever the
cursor stood.
-/

namespace MotionExport

theorem Line.trimmed_mk (number : Nat) (text : Text) : Line.trimmed ⟨number, text⟩ = text.trim :=
  rfl

namespace Cursor

open Line (trimmed_mk)

variable {c c' : Cursor}

def file (c : Cursor) : List Line := Line.numbered 1 c.lines

def ahead (c : Cursor) : List Line := c.file.drop c.position

theorem map_text_ahead (c : Cursor) : c.ahead.map (·.text) = c.remaining := by
  rw [ahead, file, List.map_drop, Line.map_text_numbered, remaining]

theorem ahead_advance (c : Cursor) (count : Nat) :
    (c.advance count).ahead = c.ahead.drop count := by
  simp [ahead, file, advance, List.drop_drop]

theorem getElem?_numbered (first i : Nat) (ts : List Text) :
    (Line.numbered first ts)[i]? = ts[i]?.map (⟨first + i, ·⟩) := by
  induction ts generalizing first i with
  | nil => simp [Line.numbered]
  | cons t ts ih =>
    cases i with
    | zero => simp [Line.numbered]
    | succ i => simp [Line.numbered, ih, Nat.add_comm, Nat.add_left_comm]

theorem number_of_ahead {line : Line} {rest : List Line} (h : c.ahead = line :: rest) :
    line.number = c.position + 1 := by
  have hi : c.file[c.position]? = some line := by
    have h0 := congrArg (·[0]?) h
    simpa [ahead] using h0
  rw [file, getElem?_numbered] at hi
  obtain ⟨t, -, rfl⟩ := Option.map_eq_some_iff.mp hi
  exact Nat.add_comm 1 c.position

theorem number_of_last_ahead {line : Line} {rest : List Line} (h : c.ahead = line :: rest) :
    (rest.getLastD line).number = c.lines.length := by
  have hlast : c.ahead.getLast? = some (rest.getLastD line) := by
    rw [h, List.getLast?_cons, List.getLastD_eq_getLast?]
  rw [ahead, List.getLast?_drop] at hlast
  split at hlast
  · contradiction
  · rw [List.getLast?_eq_getElem?, file, getElem?_numbered, Line.length_numbered] at hlast
    obtain ⟨t, ht, he⟩ := Option.map_eq_some_iff.mp hlast
    obtain ⟨hlt, -⟩ := List.getElem?_eq_some_iff.mp ht
    rw [← he]
    dsimp only
    omega

theorem ahead_of_next_none (h : c.next = (none, c')) : c.ahead = [] ∧ c' = c := by
  unfold next at h
  split at h
  · rename_i hr
    rw [← map_text_ahead] at hr
    exact ⟨by simpa using hr, by simpa using h.symm⟩
  · simp at h

theorem ahead_of_next {text : Text} (h : c.next = (some text, c')) :
    c'.lines = c.lines ∧ c.ahead = ⟨c'.position, text⟩ :: c'.ahead := by
  unfold next at h
  split at h
  · simp at h
  · rename_i first rest hr
    obtain ⟨rfl, rfl⟩ : first = text ∧ c.advance 1 = c' := by simpa using h
    refine ⟨rfl, ?_⟩
    cases ha : c.ahead with
    | nil => simp [← map_text_ahead, ha] at hr
    | cons line more =>
      obtain ⟨ht, -⟩ : line.text = first ∧ more.map (·.text) = rest := by
        simpa [← map_text_ahead, ha] using hr
      have hn : line.number = (c.advance 1).position := number_of_ahead ha
      rw [ahead_advance, ha, ← hn, ← ht]
      rfl

theorem statement_eq (c : Cursor) (text : Text) (mode : Terminator) :
    c.statement text mode = (EquationFile.statementAt mode ⟨c.position, text⟩ c.ahead).map
      fun (statement, used) => (statement, c.advance used) := by
  rw [Cursor.statement, EquationFile.statementAt, map_text_ahead]
  cases gatherStatement text c.remaining <;> rfl

theorem statementAt_of_statement_error {text : Text} {mode : Terminator} {e : ExportError}
    (h : c.statement text mode = .error e) :
    EquationFile.statementAt mode ⟨c.position, text⟩ c.ahead = .error e := by
  rw [statement_eq] at h
  cases hs : EquationFile.statementAt mode ⟨c.position, text⟩ c.ahead with
  | error e' => rw [hs] at h; cases h; rfl
  | ok r => rw [hs] at h; cases h

theorem statementAt_of_statement_ok {text statement : Text} {mode : Terminator}
    (h : c.statement text mode = .ok (statement, c')) :
    ∃ used, EquationFile.statementAt mode ⟨c.position, text⟩ c.ahead = .ok (statement, used) ∧
      c'.ahead = c.ahead.drop used ∧ c'.lines = c.lines := by
  rw [statement_eq] at h
  cases hs : EquationFile.statementAt mode ⟨c.position, text⟩ c.ahead with
  | error e => rw [hs] at h; cases h
  | ok r => rw [hs] at h; cases h; exact ⟨r.2, rfl, ahead_advance .., rfl⟩

variable {mode : Terminator}

/-- What a reader hands over is `a`, and the file has stayed the same. -/
def Reads {α : Type} (c : Cursor) (p : α × Cursor) (a : α) : Prop :=
  p.1 = a ∧ p.2.lines = c.lines

theorem reads_congr {α : Type} (h : c'.lines = c.lines) : @Reads α c' = @Reads α c := by
  funext p a
  rw [Reads, Reads, h]

theorem matched_block (s : FileSection) (c : Cursor) :
    Matched Eq (Reads c) (c.block mode s) (EquationFile.block mode s c.ahead) := by
  fun_induction Cursor.block mode s c with
  | case1 c last h =>
    obtain ⟨ha, rfl⟩ := ahead_of_next_none h
    rw [ha, EquationFile.block]
    exact .ok ⟨rfl, rfl⟩
  | case2 c line behindLine h hb =>
    obtain ⟨hl, ha⟩ := ahead_of_next h
    rw [ha, EquationFile.block, trimmed_mk, if_pos hb]
    exact .ok ⟨rfl, hl⟩
  | case3 c line behindLine h hb e he =>
    obtain ⟨hl, ha⟩ := ahead_of_next h
    rw [ha, EquationFile.block, trimmed_mk, if_neg hb, statementAt_of_statement_error he]
    exact .error rfl
  | case4 c line behindLine h hb statement behindStatement hs ih =>
    obtain ⟨hl, ha⟩ := ahead_of_next h
    obtain ⟨used, hr, hd, hl'⟩ := statementAt_of_statement_ok hs
    rw [ha, EquationFile.block, trimmed_mk, if_neg hb, hr]
    rw [hd] at ih
    refine ih.bind ?_
    rintro _ _ ⟨rfl, hf⟩
    exact .ok ⟨rfl, hf.trans (hl'.trans hl)⟩

theorem matched_openDynamics (c : Cursor) :
    Matched Eq (fun c' body => c'.ahead = body ∧ c'.lines = c.lines) c.openDynamics
      (match c.ahead.dropWhile fun l => l.trimmed ≠ [] with
        | [] => .error (.markerNotFound Marker.beforeStep.text)
        | _ :: rest => .ok rest) := by
  fun_induction openDynamics c with
  | case1 c last h =>
    obtain ⟨ha, rfl⟩ := ahead_of_next_none h
    rw [ha]
    exact .error rfl
  | case2 c line behindLine h hb =>
    obtain ⟨hl, ha⟩ := ahead_of_next h
    rw [ha, List.dropWhile_cons_of_neg (by simp [trimmed_mk, hb])]
    exact .ok ⟨rfl, hl⟩
  | case3 c line behindLine h hb ih =>
    obtain ⟨hl, ha⟩ := ahead_of_next h
    rw [ha, List.dropWhile_cons_of_pos (by simp [trimmed_mk, hb]), ← hl]
    exact ih

theorem matched_dynamics (specified : Bool) (c : Cursor) :
    Matched Eq (Reads c) (c.dynamics mode specified)
      (EquationFile.dynamics mode specified c.ahead) := by
  fun_induction Cursor.dynamics mode specified c with
  | case1 specified c last h =>
    obtain ⟨ha, rfl⟩ := ahead_of_next_none h
    rw [ha, EquationFile.dynamics]
    exact .error rfl
  | case2 specified c line behindLine h hm =>
    obtain ⟨hl, ha⟩ := ahead_of_next h
    rw [ha, EquationFile.dynamics, trimmed_mk, if_pos hm]
    exact .ok ⟨rfl, hl⟩
  | case3 specified c line behindLine h hm hb ih =>
    obtain ⟨hl, ha⟩ := ahead_of_next h
    rw [ha, EquationFile.dynamics, trimmed_mk, if_neg hm, if_pos hb]
    rw [← reads_congr hl]
    exact ih
  | case4 specified c line behindLine h hm hb ho ih =>
    obtain ⟨hl, ha⟩ := ahead_of_next h
    rw [ha, EquationFile.dynamics, trimmed_mk, if_neg hm, if_neg hb, if_pos ho]
    rw [← reads_congr hl]
    exact ih
  | case5 specified c line behindLine h hm hb ho e he =>
    obtain ⟨hl, ha⟩ := ahead_of_next h
    rw [ha, EquationFile.dynamics, trimmed_mk, if_neg hm, if_neg hb, if_neg ho,
      statementAt_of_statement_error he]
    exact .error rfl
  | case6 specified c line behindLine h hm hb ho statement behindStatement hs ih =>
    obtain ⟨hl, ha⟩ := ahead_of_next h
    obtain ⟨used, hr, hd, hl'⟩ := statementAt_of_statement_ok hs
    rw [ha, EquationFile.dynamics, trimmed_mk, if_neg hm, if_neg hb, if_neg ho, hr]
    rw [hd] at ih
    refine ih.bind ?_
    rintro _ _ ⟨rfl, hf⟩
    exact .ok ⟨rfl, hf.trans (hl'.trans hl)⟩

theorem matched_dynamicsAfterBlank (c : Cursor) :
    Matched Eq (Reads c) (c.dynamicsAfterBlank mode)
      (EquationFile.dynamicsAfterBlank mode c.ahead) := by
  have ho := matched_openDynamics c
  rw [Cursor.dynamicsAfterBlank, EquationFile.dynamicsAfterBlank]
  generalize c.openDynamics = opened at ho ⊢
  generalize (c.ahead.dropWhile fun l => l.trimmed ≠ []) = left at ho ⊢
  cases left with
  | nil =>
    cases ho with
    | error he => exact .error he
  | cons _ rest =>
    cases ho with
    | ok hc =>
      obtain ⟨rfl, hl⟩ := hc
      rw [← reads_congr hl]
      exact matched_dynamics false _

theorem matched_writeBlock (c : Cursor) :
    Matched Eq (Reads c) (c.writeBlock mode) (EquationFile.writeBlock mode c.ahead) := by
  fun_induction Cursor.writeBlock mode c with
  | case1 c last h =>
    obtain ⟨ha, rfl⟩ := ahead_of_next_none h
    rw [ha, EquationFile.writeBlock]
    exact .ok ⟨rfl, rfl⟩
  | case2 c line behindLine h hb =>
    obtain ⟨hl, ha⟩ := ahead_of_next h
    rw [ha, EquationFile.writeBlock, trimmed_mk, if_pos hb]
    exact .ok ⟨rfl, hl⟩
  | case3 c line behindLine h hb e he =>
    obtain ⟨hl, ha⟩ := ahead_of_next h
    rw [ha, EquationFile.writeBlock, trimmed_mk, if_neg hb, statementAt_of_statement_error he]
    exact .error rfl
  | case4 c line behindLine h hb statement behindStatement hs ih =>
    obtain ⟨hl, ha⟩ := ahead_of_next h
    obtain ⟨used, hr, hd, hl'⟩ := statementAt_of_statement_ok hs
    rw [ha, EquationFile.writeBlock, trimmed_mk, if_neg hb, hr]
    rw [hd] at ih
    refine ih.bind ?_
    rintro ⟨p, last⟩ _ ⟨rfl, hf⟩
    have hlast : last.lines = c.lines := hf.trans (hl'.trans hl)
    dsimp only
    split
    · exact .ok ⟨rfl, hlast⟩
    · split
      · exact .ok ⟨rfl, hlast⟩
      · exact .ok ⟨rfl, hlast⟩

theorem gather_of_declaration_error {start : Text} {e : ExportError}
    (h : c.declaration start = .error e) :
    gather Declarations.isComplete start (c.ahead.map (·.text)) = none ∧
      e = .unfinishedStatement c.lines.length := by
  rw [map_text_ahead]
  unfold Cursor.declaration at h
  split at h
  · contradiction
  · rename_i hg
    cases h
    exact ⟨hg, rfl⟩

theorem gather_of_declaration_ok {start declaration : Text}
    (h : c.declaration start = .ok (declaration, c')) :
    ∃ used, gather Declarations.isComplete start (c.ahead.map (·.text)) = some (declaration, used) ∧
      c'.ahead = c.ahead.drop used ∧ c'.lines = c.lines := by
  rw [map_text_ahead]
  unfold Cursor.declaration at h
  split at h
  · rename_i used hg
    cases h
    exact ⟨used, hg, ahead_advance .., rfl⟩
  · contradiction

theorem matched_globals (c : Cursor) :
    Matched Eq (Reads c) c.globals (Declarations.globals c.ahead) := by
  fun_induction Cursor.globals c with
  | case1 c last h =>
    obtain ⟨ha, rfl⟩ := ahead_of_next_none h
    rw [ha, Declarations.globals]
    exact .error rfl
  | case2 c line behindLine h hm =>
    obtain ⟨hl, ha⟩ := ahead_of_next h
    rw [ha, Declarations.globals, trimmed_mk, if_pos hm]
    exact .ok ⟨rfl, hl⟩
  | case3 c line behindLine h hm hd ih =>
    obtain ⟨hl, ha⟩ := ahead_of_next h
    rw [ha, Declarations.globals, trimmed_mk, if_neg hm, hd]
    rw [← reads_congr hl]
    exact ih
  | case4 c line behindLine h hm start hd e he =>
    obtain ⟨hl, ha⟩ := ahead_of_next h
    obtain ⟨hg, rfl⟩ := gather_of_declaration_error he
    rw [ha, Declarations.globals, trimmed_mk, if_neg hm, hd]
    simp only [hg]
    exact .error (by rw [number_of_last_ahead ha, hl])
  | case5 c line behindLine h hm start hd declaration behindDeclaration hs ih =>
    obtain ⟨hl, ha⟩ := ahead_of_next h
    obtain ⟨used, hg, hd', hl'⟩ := gather_of_declaration_ok hs
    rw [ha, Declarations.globals, trimmed_mk, if_neg hm, hd]
    simp only [hg]
    rw [hd'] at ih
    refine ih.bind ?_
    rintro _ _ ⟨rfl, hf⟩
    exact .ok ⟨rfl, hf.trans (hl'.trans hl)⟩

theorem isOn_eq {m : Marker} (hm : m ≠ .main) (line : Text) :
    m.isOn line = decide (line = m.text) := by
  cases m <;> first | rfl | contradiction

/-- A jump leads to the lines behind the first line that is the marker. -/
theorem matched_seek {m : Marker} (hm : m ≠ .main) (c : Cursor) :
    Matched Eq (fun c' body => c'.ahead = body ∧ c'.lines = c.lines) (c.seek m.text)
      (EquationFile.behind m c.file) := by
  have hfind : (c.lines.findIdx? fun line => line.trim = m.text) =
      c.file.findIdx? fun l => m.isOn l.trimmed := by
    rw [← Line.map_text_numbered 1 c.lines, List.findIdx?_map, file]
    congr 1
    funext l
    exact (isOn_eq hm _).symm
  rw [seek, EquationFile.behind, hfind, List.dropWhile_eq_drop_findIdx_not]
  simp only [Bool.not_not]
  cases hi : c.file.findIdx? fun l => m.isOn l.trimmed with
  | none =>
    have hlen := List.findIdx?_eq_none_iff_findIdx_eq.mp hi
    rw [hlen, List.drop_length]
    exact .error rfl
  | some i =>
    obtain ⟨hlt, hidx⟩ := List.findIdx?_eq_some_iff_findIdx_eq.mp hi
    rw [hidx, List.drop_eq_getElem_cons hlt]
    exact .ok ⟨rfl, rfl⟩

theorem matched_seek_of_lines_eq {m : Marker} (hm : m ≠ .main) (h : c'.lines = c.lines) :
    Matched Eq (fun c'' body => c''.ahead = body ∧ c''.lines = c.lines) (c'.seek m.text)
      (EquationFile.behind m c.file) := by
  have hseek := matched_seek hm c'
  rwa [file, h] at hseek

/-- A log read through a cursor is the log of its file, wherever the cursor stands. -/
theorem log_eq (settings : ExportSettings) (c : Cursor) :
    c.log settings = StatementLog.ofLines settings c.lines := by
  rw [Cursor.log, StatementLog.ofLines]
  split
  · rename_i hlen
    rw [skip, if_neg (by simpa [rewind, remaining] using hlen)]
    rfl
  · rename_i hlen
    rw [skip, if_pos (by simpa [rewind, remaining] using hlen)]
    have hg := matched_globals (c.rewind.advance settings.equationHeader)
    rw [ahead_advance] at hg
    refine Matched.eq (hg.bind ?_)
    rintro ⟨globals, c₁⟩ _ ⟨rfl, h₁⟩
    refine (matched_seek_of_lines_eq (by decide) h₁).bind ?_
    rintro c₂ _ ⟨rfl, h₂⟩
    refine (matched_block .constants c₂).bind ?_
    rintro ⟨constants, c₃⟩ _ ⟨rfl, h₃⟩
    refine (matched_seek_of_lines_eq (by decide) (h₃.trans h₂)).bind ?_
    rintro c₄ _ ⟨rfl, h₄⟩
    refine (matched_dynamicsAfterBlank c₄).bind ?_
    rintro ⟨dynamics, c₅⟩ _ ⟨rfl, h₅⟩
    refine (matched_seek_of_lines_eq (by decide) (h₅.trans h₄)).bind ?_
    rintro c₆ _ ⟨rfl, h₆⟩
    refine (matched_writeBlock c₆).bind ?_
    rintro ⟨⟨outputNames, written⟩, c₇⟩ _ ⟨rfl, h₇⟩
    refine (matched_seek_of_lines_eq (by decide) (h₇.trans h₆)).bind ?_
    rintro c₈ _ ⟨rfl, -⟩
    refine (matched_block .evaluateOutput c₈).bind ?_
    rintro ⟨evaluated, c₉⟩ _ ⟨rfl, -⟩
    exact .ok rfl

end Cursor

end MotionExport
