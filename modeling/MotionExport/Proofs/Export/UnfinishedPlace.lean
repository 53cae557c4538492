import MotionExport.Proofs.Export.MissingMarker

/-! # Where an unfinished statement starts

A file may end inside of a statement or a declaration. The line that it starts on is the first one
that opens something behind lines with nothing open, and that neither it nor a later line closes. A
statement is reported at this line, a declaration at the last line of the file.
-/

namespace MotionExport

/-- What the trimmed lines of a part are for its reader: the end of the part, the first line of a
statement or a declaration, or the last line of one. -/
structure LineRoles where
  stops : Text → Bool
  opens : Text → Bool
  closes : Text → Bool

namespace LineRoles

/-- Nothing is open behind the lines: they are statements or declarations, each from the line that
opens it to the first one that closes it, and other lines. -/
inductive Settles (roles : LineRoles) : List Line → Prop where

  | nil : Settles roles []

  | pass {line : Line} {lines : List Line} (hs : roles.stops line.trimmed = false)
    (ho : roles.opens line.trimmed = false) (rest : Settles roles lines) :
    Settles roles (line :: lines)

  | whole {front lines : List Line} {last : Line}
    (hs : roles.stops (front.headD last).trimmed = false)
    (ho : roles.opens (front.headD last).trimmed = true)
    (hfront : ∀ l ∈ front, roles.closes l.trimmed = false)
    (hlast : roles.closes last.trimmed = true) (rest : Settles roles lines) :
    Settles roles (front ++ last :: lines)

/-- The line opens something behind lines with nothing open, and no line of the rest closes it. -/
structure LeavesOpen (roles : LineRoles) (lines : List Line) (line : Line) (rest : List Line) :
    Prop where
  settled : ∃ front, lines = front ++ line :: rest ∧ roles.Settles front
  not_stops : roles.stops line.trimmed = false
  opens : roles.opens line.trimmed = true
  not_closes : ∀ l ∈ line :: rest, roles.closes l.trimmed = false

variable {roles : LineRoles} {complete : Text → Bool} {text whole : Text} {first line : Line}
  {lines rest : List Line} {used : Nat}

theorem LeavesOpen.pass (hs : roles.stops first.trimmed = false)
    (ho : roles.opens first.trimmed = false) (h : roles.LeavesOpen lines line rest) :
    roles.LeavesOpen (first :: lines) line rest := by
  obtain ⟨front, rfl, hfront⟩ := h.settled
  exact { h with settled := ⟨first :: front, rfl, .pass hs ho hfront⟩ }

/-- What has been gathered is closed, so what is open starts behind it. -/
theorem LeavesOpen.of_gather (hc : CompletedBy complete roles.closes)
    (hline : complete text = roles.closes first.trimmed)
    (hs : roles.stops first.trimmed = false) (ho : roles.opens first.trimmed = true)
    (hg : gather complete text (lines.map (·.text)) = some (whole, used))
    (h : roles.LeavesOpen (lines.drop used) line rest) :
    roles.LeavesOpen (first :: lines) line rest := by
  obtain ⟨front, hdrop, hfront⟩ := h.settled
  cases hclose : roles.closes first.trimmed with
  | true =>
    obtain ⟨-, rfl⟩ : text = whole ∧ 0 = used := by
      simpa using (gather_of_complete (hline.trans hclose) _).symm.trans hg
    obtain rfl : lines = front ++ line :: rest := hdrop
    exact { h with settled := ⟨[] ++ first :: front, rfl, .whole hs ho (by simp) hclose hfront⟩ }
  | false =>
    obtain ⟨between, last, htake, hbetween, hlast⟩ := lines_of_gather hc hg (hline.trans hclose)
    have hlines : lines = between ++ last :: (front ++ line :: rest) := by
      calc lines = lines.take used ++ lines.drop used := (List.take_append_drop used lines).symm
        _ = between ++ last :: (front ++ line :: rest) := by simp [htake, hdrop]
    refine { h with settled := ⟨(first :: between) ++ last :: front, by simp [hlines], ?_⟩ }
    exact .whole hs ho (List.forall_mem_cons.mpr ⟨hclose, hbetween⟩) hlast hfront

theorem LeavesOpen.of_gather_eq_none (hc : CompletedBy complete roles.closes)
    (hline : complete text = roles.closes first.trimmed)
    (hs : roles.stops first.trimmed = false) (ho : roles.opens first.trimmed = true)
    (hg : gather complete text (lines.map (·.text)) = none) :
    roles.LeavesOpen (first :: lines) first lines := by
  have hclose : roles.closes first.trimmed = false := by
    cases hclose : roles.closes first.trimmed with
    | false => rfl
    | true =>
      rw [gather_of_complete (hline.trans hclose)] at hg
      contradiction
  constructor
  case settled => exact ⟨[], rfl, .nil⟩
  case not_stops => exact hs
  case opens => exact ho
  case not_closes =>
    have hrest := (gather_eq_none_iff hc (hline.trans hclose)).mp hg
    exact List.forall_mem_cons.mpr ⟨hclose, hrest⟩

end LineRoles

namespace EquationFile

variable {mode : Terminator} {s : FileSection} {specified : Bool} {lines rest : List Line}
  {line : Line} {n : Nat}

def statementRoles (stops opens : Text → Bool) : LineRoles := ⟨stops, opens, endsStatement⟩

def blockRoles : LineRoles := statementRoles (· = []) (· ≠ [])

def dynamicsRoles : LineRoles := statementRoles Marker.beforeStep.isOn opensStatement

variable {stops opens : Text → Bool}

theorem leavesOpen_of_statementAt_error (hs : stops line.trimmed = false)
    (ho : opens line.trimmed = true)
    (h : statementAt mode line rest = .error (.unfinishedStatement n)) :
    ∃ line' rest', (statementRoles stops opens).LeavesOpen (line :: rest) line' rest' ∧
      n = line'.number := by
  unfold statementAt at h
  split at h
  · rename_i hg
    cases h
    exact ⟨line, rest, .of_gather_eq_none completedBy_endsStatement rfl hs ho hg, rfl⟩
  · contradiction

theorem leavesOpen_of_statementAt_ok {statement : Text} {used : Nat}
    (hs : stops line.trimmed = false) (ho : opens line.trimmed = true)
    (h : statementAt mode line rest = .ok (statement, used))
    (hrest : ∃ line' rest', (statementRoles stops opens).LeavesOpen (rest.drop used) line' rest' ∧
      n = line'.number) :
    ∃ line' rest', (statementRoles stops opens).LeavesOpen (line :: rest) line' rest' ∧
      n = line'.number := by
  obtain ⟨line', rest', hopen, hn⟩ := hrest
  unfold statementAt at h
  split at h
  · contradiction
  · rename_i hg
    cases h
    exact ⟨line', rest', .of_gather completedBy_endsStatement rfl hs ho hg hopen, hn⟩

theorem block_unfinished (h : block mode s lines = .error (.unfinishedStatement n)) :
    ∃ line rest, blockRoles.LeavesOpen lines line rest ∧ n = line.number := by
  fun_induction block mode s lines with
  | case1 => contradiction
  | case2 => contradiction
  | case3 line rest hb ih =>
    have hs : decide (line.trimmed = []) = false := by simpa using hb
    have ho : decide (line.trimmed ≠ []) = true := by simpa using hb
    rcases bind_eq_error_iff.mp h with h | ⟨⟨statement, used⟩, hread, h⟩
    · exact leavesOpen_of_statementAt_error hs ho h
    · rcases bind_eq_error_iff.mp h with h | ⟨_, -, h⟩
      · exact leavesOpen_of_statementAt_ok hs ho hread (ih used h)
      · contradiction

theorem writeBlock_unfinished (h : writeBlock mode lines = .error (.unfinishedStatement n)) :
    ∃ line rest, blockRoles.LeavesOpen lines line rest ∧ n = line.number := by
  fun_induction writeBlock mode lines with
  | case1 => contradiction
  | case2 => contradiction
  | case3 line rest hb ih =>
    have hs : decide (line.trimmed = []) = false := by simpa using hb
    have ho : decide (line.trimmed ≠ []) = true := by simpa using hb
    rcases bind_eq_error_iff.mp h with h | ⟨⟨statement, used⟩, hread, h⟩
    · exact leavesOpen_of_statementAt_error hs ho h
    · rcases bind_eq_error_iff.mp h with h | ⟨⟨names, statements⟩, -, h⟩
      · exact leavesOpen_of_statementAt_ok hs ho hread (ih used h)
      · dsimp only at h
        split at h
        · contradiction
        · split at h <;> contradiction

theorem dynamics_unfinished (h : dynamics mode specified lines = .error (.unfinishedStatement n)) :
    ∃ line rest, dynamicsRoles.LeavesOpen lines line rest ∧ n = line.number := by
  fun_induction dynamics mode specified lines with
  | case1 => cases h
  | case2 => contradiction
  | case3 _ line rest hm hb ih =>
    obtain ⟨line', rest', hopen, hn⟩ := ih h
    have ho : opensStatement line.trimmed = false := by simp [opensStatement, hb]
    exact ⟨line', rest', hopen.pass (Bool.eq_false_iff.mpr hm) ho, hn⟩
  | case4 _ line rest hm hb hspecified ih =>
    obtain ⟨line', rest', hopen, hn⟩ := ih h
    have ho : opensStatement line.trimmed = false := by simp [opensStatement, hspecified]
    exact ⟨line', rest', hopen.pass (Bool.eq_false_iff.mpr hm) ho, hn⟩
  | case5 specified line rest hm hb hspecified ih =>
    have hs : Marker.beforeStep.isOn line.trimmed = false := Bool.eq_false_iff.mpr hm
    have ho : opensStatement line.trimmed = true := by simp [opensStatement, hb, hspecified]
    rcases bind_eq_error_iff.mp h with h | ⟨⟨statement, used⟩, hread, h⟩
    · exact leavesOpen_of_statementAt_error hs ho h
    · rcases bind_eq_error_iff.mp h with h | ⟨_, -, h⟩
      · exact leavesOpen_of_statementAt_ok hs ho hread (ih used h)
      · contradiction

theorem dynamicsAfterBlank_unfinished
    (h : dynamicsAfterBlank mode lines = .error (.unfinishedStatement n)) :
    ∃ line rest, dynamicsRoles.LeavesOpen (lines.dropWhile (·.trimmed ≠ [])).tail line rest ∧
      n = line.number := by
  unfold dynamicsAfterBlank at h
  split at h
  · cases h
  · rename_i hdrop
    rw [hdrop]
    exact dynamics_unfinished h

theorem exists_of_behind_unfinished {α : Type} {m : Marker}
    {read : List Line → Except ExportError α}
    (h : behind m lines >>= read = .error (.unfinishedStatement n)) :
    ∃ body, FollowsMarker m lines body ∧ read body = .error (.unfinishedStatement n) := by
  rcases bind_eq_error_iff.mp h with h | ⟨body, hbody, h⟩
  · unfold behind at h
    split at h
    · cases h
    · contradiction
  · exact ⟨body, followsMarker_of_behind hbody, h⟩

end EquationFile

namespace Declarations

def roles : LineRoles := ⟨Marker.main.isOn, opens, closes⟩

theorem globals_unfinished {lines : List Line} {n : Nat}
    (h : globals lines = .error (.unfinishedStatement n)) :
    ∃ line rest, roles.LeavesOpen lines line rest ∧ n = (rest.getLastD line).number := by
  fun_induction globals lines with
  | case1 => cases h
  | case2 => contradiction
  | case3 line rest hm hd ih =>
    obtain ⟨line', rest', hopen, hn⟩ := ih h
    have ho : opens line.trimmed = false := by simp [opens, hd]
    exact ⟨line', rest', hopen.pass (Bool.eq_false_iff.mpr hm) ho, hn⟩
  | case4 line rest hm start hd hg =>
    have hg : gather isComplete start (rest.map (·.text)) = none := by simpa using hg
    have ho : opens line.trimmed = true := by simp [opens, hd]
    rw [hg] at h
    cases h
    exact ⟨line, rest, .of_gather_eq_none completedBy_closes (isComplete_of_declaration? hd)
      (Bool.eq_false_iff.mpr hm) ho hg, rfl⟩
  | case5 line rest hm start hd declaration used hg ih =>
    have hg : gather isComplete start (rest.map (·.text)) = some (declaration, used) := by
      simpa using hg
    have ho : opens line.trimmed = true := by simp [opens, hd]
    rw [hg] at h
    rcases bind_eq_error_iff.mp h with h | ⟨_, -, h⟩
    · obtain ⟨line', rest', hopen, hn⟩ := ih h
      exact ⟨line', rest', .of_gather completedBy_closes (isComplete_of_declaration? hd)
        (Bool.eq_false_iff.mpr hm) ho hg hopen, hn⟩
    · contradiction

end Declarations

open EquationFile

/-- The lines that the part with the marker is read from, and what they are for its reader. The
declarations stand in front of their marker. -/
inductive ReadFrom (settings : ExportSettings) (lines : List Text) :
    Marker → LineRoles → List Line → Prop where

  | declarations : ReadFrom settings lines .main Declarations.roles
    ((Line.numbered 1 lines).drop settings.equationHeader)

  | constants {body : List Line} (h : FollowsMarker .constants (Line.numbered 1 lines) body) :
    ReadFrom settings lines .constants blockRoles body

  | dynamics {body : List Line} (h : FollowsMarker .afterStep (Line.numbered 1 lines) body) :
    ReadFrom settings lines .beforeStep dynamicsRoles (body.dropWhile (·.trimmed ≠ [])).tail

  | writeOutput {body : List Line} (h : FollowsMarker .writeOutput (Line.numbered 1 lines) body) :
    ReadFrom settings lines .writeOutput blockRoles body

  | evaluateOutput {body : List Line}
    (h : FollowsMarker .evaluateOutput (Line.numbered 1 lines) body) :
    ReadFrom settings lines .evaluateOutput blockRoles body

/-- The file ends inside of what starts on the line. It is read in search of the marker, or behind
it, and all that is read before is read without fail. -/
structure EndsInside (settings : ExportSettings) (lines : List Text) (m : Marker) (line : Line)
    (rest : List Line) : Prop where
  reads : ReadsUpTo settings lines m
  leavesOpen : ∃ roles body, ReadFrom settings lines m roles body ∧ roles.LeavesOpen body line rest

theorem exists_mem_of_forM_eq_error {outcomes : List (Marker × Except ExportError Unit)}
    {e : ExportError} (h : outcomes.forM (·.2) = .error e) :
    ∃ p ∈ outcomes, p.2 = .error e ∧ ∀ q ∈ outcomes.takeWhile (·.1 ≠ p.1), q.2 = .ok () := by
  induction outcomes with
  | nil => cases h
  | cons p outcomes ih =>
    rw [List.forM_eq_forM, List.forM_cons] at h
    rcases bind_eq_error_iff.mp h with hp | ⟨_, hp, h⟩
    · exact ⟨p, List.mem_cons_self, hp, by simp⟩
    · obtain ⟨q, hq, he, hbefore⟩ := ih h
      refine ⟨q, List.mem_cons_of_mem p hq, he, ?_⟩
      rw [List.takeWhile_cons]
      split
      · exact List.forall_mem_cons.mpr ⟨hp, hbefore⟩
      · simp

theorem number_getLastD_of_numbered {first : Nat} {ts : List Text} {front rest : List Line}
    {line : Line} (h : Line.numbered first ts = front ++ line :: rest) :
    (rest.getLastD line).number = line.number + rest.length := by
  have hplace : ∀ i l, (front ++ line :: rest)[i]? = some l → l.number = first + i := by
    intro i l hl
    rw [← h, Cursor.getElem?_numbered] at hl
    obtain ⟨t, -, rfl⟩ := Option.map_eq_some_iff.mp hl
    rfl
  have hline := hplace front.length line (by simp)
  have hend : (line :: rest)[rest.length]? = some (rest.getLastD line) := by
    have hlast : (line :: rest).getLast? = some (rest.getLastD line) := by
      rw [List.getLast?_cons, List.getLastD_eq_getLast?]
    simpa [List.getLast?_eq_getElem?] using hlast
  have hlast := hplace (front.length + rest.length) (rest.getLastD line) (by
    rw [List.getElem?_append_right (Nat.le_add_right _ _), Nat.add_sub_cancel_left, hend])
  omega

namespace Cursor

variable {settings : ExportSettings} {n : Nat}

/-- If a file ends inside of a statement or a declaration, nothing is open in front of the line that
it starts on, and no line from there on closes it. A statement is reported at this line, and a
declaration at the last line of the file. -/
theorem log_unfinished (c : Cursor) (h : c.log settings = .error (.unfinishedStatement n)) :
    ∃ m line rest, EndsInside settings c.lines m line rest ∧
      n = if m = .main then line.number + rest.length else line.number := by
  rw [log_eq] at h
  by_cases hlen : settings.equationHeader ≤ c.lines.length
  · have hfails : outcome (StatementLog.ofLines settings c.lines) =
        .error (.unfinishedStatement n) := by
      rw [h]
      rfl
    rw [outcome_ofLines hlen] at hfails
    obtain ⟨⟨m, x⟩, hmem, hx, hbefore⟩ := exists_mem_of_forM_eq_error hfails
    have hreads : ReadsUpTo settings c.lines m := ⟨hlen, hbefore⟩
    simp only [sectionOutcomes, List.mem_cons, Prod.mk.injEq, List.not_mem_nil, or_false] at hmem
    rcases hmem with ⟨rfl, rfl⟩ | ⟨rfl, rfl⟩ | ⟨rfl, rfl⟩ | ⟨rfl, rfl⟩ | ⟨rfl, rfl⟩ | ⟨rfl, rfl⟩
    · obtain ⟨line, rest, hopen, hn⟩ := Declarations.globals_unfinished (eq_error_of_outcome hx)
      obtain ⟨front, hlines, -⟩ := hopen.settled
      rw [Line.drop_numbered] at hlines
      refine ⟨_, line, rest, ⟨hreads, _, _, .declarations, hopen⟩, ?_⟩
      rw [hn, if_pos rfl, number_getLastD_of_numbered hlines]
    · obtain ⟨body, hbehind, hread⟩ := exists_of_behind_unfinished (eq_error_of_outcome hx)
      obtain ⟨line, rest, hopen, hn⟩ := block_unfinished hread
      exact ⟨_, line, rest, ⟨hreads, _, _, .constants hbehind, hopen⟩, hn⟩
    · obtain ⟨_, -, hread⟩ := exists_of_behind_unfinished hx
      cases hread
    · obtain ⟨body, hbehind, hread⟩ := exists_of_behind_unfinished (eq_error_of_outcome hx)
      obtain ⟨line, rest, hopen, hn⟩ := dynamicsAfterBlank_unfinished hread
      exact ⟨_, line, rest, ⟨hreads, _, _, .dynamics hbehind, hopen⟩, hn⟩
    · obtain ⟨body, hbehind, hread⟩ := exists_of_behind_unfinished (eq_error_of_outcome hx)
      obtain ⟨line, rest, hopen, hn⟩ := writeBlock_unfinished hread
      exact ⟨_, line, rest, ⟨hreads, _, _, .writeOutput hbehind, hopen⟩, hn⟩
    · obtain ⟨body, hbehind, hread⟩ := exists_of_behind_unfinished (eq_error_of_outcome hx)
      obtain ⟨line, rest, hopen, hn⟩ := block_unfinished hread
      exact ⟨_, line, rest, ⟨hreads, _, _, .evaluateOutput hbehind, hopen⟩, hn⟩
  · rw [StatementLog.ofLines, if_pos (Nat.not_le.mp hlen)] at h
    cases h

def unfinishedConstant : List Text :=
  ["/* 0 MAIN 0 */".toList, "/* Evaluate constants */".toList, "k = 1;".toList, "g = k +".toList,
    "  2".toList]

theorem log_unfinishedConstant :
    Cursor.log { equationHeader := 0 } ⟨unfinishedConstant, 0⟩ = .error (.unfinishedStatement 4) ∧
      ∃ m line rest, EndsInside { equationHeader := 0 } unfinishedConstant m line rest ∧
        4 = if m = .main then line.number + rest.length else line.number := by
  have hlog : Cursor.log { equationHeader := 0 } ⟨unfinishedConstant, 0⟩ =
      .error (.unfinishedStatement 4) := by
    decide +kernel
  exact ⟨hlog, log_unfinished ⟨unfinishedConstant, 0⟩ hlog⟩

def unfinishedDeclaration : List Text := ["double a,".toList, " b,".toList]

/-- The declaration starts on the first line and is reported at the second. -/
theorem log_unfinishedDeclaration :
    Cursor.log { equationHeader := 0 } ⟨unfinishedDeclaration, 0⟩ =
        .error (.unfinishedStatement 2) ∧
      EndsInside { equationHeader := 0 } unfinishedDeclaration .main ⟨1, "double a,".toList⟩
        [⟨2, " b,".toList⟩] := by
  refine ⟨by decide +kernel, ⟨by decide, by decide⟩, _, _, .declarations, ?_⟩
  constructor
  case settled => exact ⟨[], rfl, .nil⟩
  case not_stops => decide +kernel
  case opens => decide +kernel
  case not_closes => decide +kernel

end Cursor

end MotionExport
