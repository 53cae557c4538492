import Mathlib.Data.List.Nodup
import Mathlib.Data.List.Pairwise
import MotionExport.Proofs.Export.BlockTiling

/-! # The pieces of the dynamics

The dynamics of a file fall into blank lines and markers that stand alone, and the ranges of
statements. A statement is one of a specified input if, of the lines that stand alone, the nearest
before it is a marker. Blank lines and markers inside a statement do not count.
-/

namespace MotionExport

/-- A stretch of the dynamics: a line that stands alone, or the lines of a statement. -/
inductive DynamicsPiece where

  | blank (line : Line) (is_blank : line.trimmed = [])

  | opening (line : Line) (opens : Marker.opensSpecified line.trimmed = true)

  | statement (range : StatementRange)
      (not_end : Marker.beforeStep.isOn range.first.trimmed = false)
      (not_opening : Marker.opensSpecified range.first.trimmed = false)

namespace DynamicsPiece

def lines : DynamicsPiece → List Line
  | blank line _ => [line]
  | opening line _ => [line]
  | statement range _ _ => range.lines

def range? : DynamicsPiece → Option StatementRange
  | statement range _ _ => some range
  | _ => none

def standsAlone (p : DynamicsPiece) : Bool := p.range?.isNone

def isOpening : DynamicsPiece → Bool
  | opening _ _ => true
  | _ => false

/-- The section of a statement behind the pieces `before`: the nearest line that stands alone
decides. -/
def sectionBehind (before : List DynamicsPiece) : FileSection :=
  if (before.filter standsAlone).getLast?.any isOpening then .specified else .motion

def logged (mode : Terminator) (before : List DynamicsPiece) :
    List DynamicsPiece → List LoggedStatement
  | [] => []
  | p :: pieces =>
    (p.range?.map fun r => r.logged mode (sectionBehind before)).toList
      ++ logged mode (before ++ [p]) pieces

theorem lines_ne_nil (p : DynamicsPiece) : p.lines ≠ [] := by
  cases p with
  | blank line _ => simp [lines]
  | opening line _ => simp [lines]
  | statement range _ _ => exact range.lines_ne_nil

@[simp] theorem sectionBehind_blank (before : List DynamicsPiece) {line : Line}
    (h : line.trimmed = []) : sectionBehind (before ++ [blank line h]) = .motion := by
  simp [sectionBehind, standsAlone, range?, isOpening]

@[simp] theorem sectionBehind_opening (before : List DynamicsPiece) {line : Line}
    (h : Marker.opensSpecified line.trimmed = true) :
    sectionBehind (before ++ [opening line h]) = .specified := by
  simp [sectionBehind, standsAlone, range?, isOpening]

@[simp] theorem sectionBehind_statement (before : List DynamicsPiece) {range : StatementRange}
    (he : Marker.beforeStep.isOn range.first.trimmed = false)
    (ho : Marker.opensSpecified range.first.trimmed = false) :
    sectionBehind (before ++ [statement range he ho]) = sectionBehind before := by
  simp [sectionBehind, standsAlone, range?]

theorem line_logged_sublist (mode : Terminator) (before pieces : List DynamicsPiece) :
    ((logged mode before pieces).map (·.line)).Sublist
      ((pieces.flatMap lines).map (·.number)) := by
  induction pieces generalizing before with
  | nil => simp [logged]
  | cons p pieces ih =>
    rw [logged, List.map_append, List.flatMap_cons, List.map_append]
    refine List.Sublist.append ?_ (ih _)
    cases p with
    | blank line _ => simp [range?]
    | opening line _ => simp [range?]
    | statement range _ _ =>
      simpa [range?, lines, StatementRange.logged] using ⟨_, range.first_mem_lines, rfl⟩

theorem existsUnique_of_mem {pieces : List DynamicsPiece} (hn : (pieces.flatMap lines).Nodup)
    {l : Line} (hl : l ∈ pieces.flatMap lines) : ∃! p, p ∈ pieces ∧ l ∈ p.lines := by
  obtain ⟨p, hp, hlp⟩ := List.mem_flatMap.mp hl
  refine ⟨p, ⟨hp, hlp⟩, fun q ⟨hq, hlq⟩ => ?_⟩
  by_contra hne
  have hd := (List.nodup_flatMap.mp hn).2
  have : Std.Symm (Function.onFun List.Disjoint lines) := ⟨fun _ _ h => List.disjoint_symm h⟩
  exact hd.forall hq hp hne hlq hlp

end DynamicsPiece

open DynamicsPiece

namespace EquationFile

variable {mode : Terminator} {specified : Bool} {lines : List Line}
  {statements : List LoggedStatement}

def dynamicsSection (specified : Bool) : FileSection := if specified then .specified else .motion

/-- The dynamics are read piece by piece. The flag is the section behind what has been read. -/
theorem exists_pieces_of_dynamics (h : dynamics mode specified lines = .ok statements)
    {before : List DynamicsPiece} (hs : sectionBehind before = dynamicsSection specified) :
    ∃ pieces closing rest, lines = pieces.flatMap DynamicsPiece.lines ++ closing :: rest ∧
      Marker.beforeStep.isOn closing.trimmed = true ∧ statements = logged mode before pieces := by
  fun_induction dynamics mode specified lines generalizing before statements with
  | case1 => contradiction
  | case2 _ line rest hm =>
    cases h
    exact ⟨[], line, rest, rfl, hm, rfl⟩
  | case3 _ line rest _ hb ih =>
    obtain ⟨pieces, closing, more, rfl, hc, rfl⟩ := ih h (sectionBehind_blank before hb)
    exact ⟨.blank line hb :: pieces, closing, more, rfl, hc, rfl⟩
  | case4 _ line rest _ _ ho ih =>
    obtain ⟨pieces, closing, more, rfl, hc, rfl⟩ := ih h (sectionBehind_opening before ho)
    exact ⟨.opening line ho :: pieces, closing, more, rfl, hc, rfl⟩
  | case5 specified line rest hm hb ho ih =>
    obtain ⟨⟨statement, used⟩, hst, h⟩ := bind_eq_ok_iff.mp h
    obtain ⟨later, hl, h⟩ := bind_eq_ok_iff.mp h
    cases h
    obtain ⟨r, rfl, hr, rfl⟩ := exists_range_of_statementAt hst hb
    rw [Bool.not_eq_true] at hm ho
    -- A statement leaves the section behind it as it was.
    obtain ⟨pieces, closing, more, hd, hc, rfl⟩ :=
      ih used hl ((sectionBehind_statement before hm ho).trans hs)
    refine ⟨.statement r hm ho :: pieces, closing, more, ?_, hc, ?_⟩
    · calc
        r.first :: rest = r.first :: rest.take used ++ rest.drop used := by
          rw [List.cons_append, List.take_append_drop]
        _ = _ := by rw [hd, ← hr, List.flatMap_cons, List.append_assoc]; rfl
    · rw [logged, hs]
      rfl

theorem exists_pieces_of_dynamicsAfterBlank
    (h : dynamicsAfterBlank mode lines = .ok statements) :
    ∃ skipped opener, ∃ ho : opener.trimmed = [], ∃ pieces closing rest,
      lines = skipped ++ opener :: (pieces.flatMap DynamicsPiece.lines ++ closing :: rest) ∧
      (∀ l ∈ skipped, l.trimmed ≠ []) ∧ Marker.beforeStep.isOn closing.trimmed = true ∧
      statements = logged mode [.blank opener ho] pieces := by
  unfold dynamicsAfterBlank at h
  split at h
  · contradiction
  · rename_i opener rest hd
    have ho : opener.trimmed = [] := by
      have hn := List.head?_dropWhile_not (fun l : Line => decide (l.trimmed ≠ [])) lines
      rw [hd] at hn
      simpa using hn
    obtain ⟨pieces, closing, more, rfl, hc, hst⟩ :=
      exists_pieces_of_dynamics h (sectionBehind_blank [] ho)
    refine ⟨lines.takeWhile fun l => l.trimmed ≠ [], opener, ho, pieces, closing, more,
      ?_, ?_, hc, hst⟩
    · rw [← hd, List.takeWhile_append_dropWhile]
    · intro l hl
      simpa using List.mem_takeWhile_imp hl

end EquationFile

/-- How the dynamics of a file are cut, up to the first marker of their end that is in the middle of
no statement, and what the log records of them. -/
structure DynamicsTiling (mode : Terminator) (file : List Line) (log : StatementLog) where
  body : List Line
  skipped : List Line
  opener : Line
  pieces : List DynamicsPiece
  closing : Line
  rest : List Line
  body_behind : FollowsMarker .afterStep file body
  body_eq : body = skipped ++ opener :: (pieces.flatMap DynamicsPiece.lines ++ closing :: rest)
  skipped_ne_nil : ∀ l ∈ skipped, l.trimmed ≠ []
  opener_blank : opener.trimmed = []
  closing_isOn : Marker.beforeStep.isOn closing.trimmed = true
  /-- Every line belongs to one piece only. -/
  existsUnique_piece : ∀ l ∈ pieces.flatMap DynamicsPiece.lines, ∃! p, p ∈ pieces ∧ l ∈ p.lines
  /-- The blank line before the dynamics counts when a section is decided. -/
  recorded : log.statements.filter (fun e => e.origin = .motion ∨ e.origin = .specified) =
    logged mode [.blank opener opener_blank] pieces
  increasing : (log.statements.filter fun e => e.origin = .motion ∨ e.origin = .specified).Pairwise
    (·.line < ·.line)

/-- A log that has been read tiles the dynamics of its file. -/
theorem dynamics_tiled_of_log {settings : ExportSettings} {c : Cursor} {log : StatementLog}
    (h : c.log settings = .ok log) :
    Nonempty (DynamicsTiling settings.terminator c.file log) := by
  rw [Cursor.log_eq] at h
  obtain ⟨p⟩ := nonempty_logParts h
  obtain ⟨skipped, opener, ho, pieces, closing, rest, hbody, hskip, hc, hst⟩ :=
    EquationFile.exists_pieces_of_dynamicsAfterBlank p.dynamics_read
  have hsub : (pieces.flatMap DynamicsPiece.lines).Sublist c.file := by
    obtain ⟨front, line, hfile, -, -⟩ := p.dynamics_behind
    calc
      (pieces.flatMap DynamicsPiece.lines).Sublist p.dynamicLines := by
        rw [hbody]
        exact ((List.sublist_append_left _ _).trans (List.sublist_cons_self _ _)).trans
          (List.sublist_append_right _ _)
      _ |>.Sublist (front ++ line :: p.dynamicLines) :=
        (List.sublist_cons_self _ _).trans (List.sublist_append_right _ _)
      _ = c.file := hfile.symm
  have hlt : (pieces.flatMap DynamicsPiece.lines).Pairwise (·.number < ·.number) :=
    (Line.pairwise_number_numbered 1 c.lines).sublist hsub
  have hrecorded := p.filter_motion_or_specified.trans hst
  refine ⟨⟨p.dynamicLines, skipped, opener, pieces, closing, rest, p.dynamics_behind, hbody, hskip,
    ho, hc, ?_, hrecorded, ?_⟩⟩
  · intro l hl
    refine existsUnique_of_mem (hlt.imp ?_) hl
    rintro a _ hn rfl
    exact Nat.lt_irrefl _ hn
  · rw [hrecorded, ← List.pairwise_map]
    exact (List.pairwise_map.mpr hlt).sublist (line_logged_sublist _ _ _)

theorem dynamics_tiled_wrappedLog :
    Cursor.log { equationHeader := 0 } ⟨wrappedFile, 5⟩ = .ok wrappedLog ∧
      Nonempty (DynamicsTiling .strip (Line.numbered 1 wrappedFile) wrappedLog) :=
  ⟨log_wrappedFile, dynamics_tiled_of_log log_wrappedFile⟩

end MotionExport
