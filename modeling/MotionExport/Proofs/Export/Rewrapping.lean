import MotionExport.Proofs.Export.BlockTiling
import MotionExport.Proofs.Export.Locality
import MotionExport.Proofs.Export.ReadAlike
import MotionExport.Proofs.Text.Pieces

/-! # How statements are wrapped

A file in which a statement behind the banner is wrapped over other lines has the same log, but for
the numbers of lines. Blanks at the ends of lines change nothing at all.
-/

namespace MotionExport

variable {same : Nat → Nat → Prop}

theorem ReadAlike.matched_ofLines {lines lines' : List Text}
    (h : ReadAlike same (Line.numbered 1 lines) (Line.numbered 1 lines'))
    (settings : ExportSettings) (hlen : settings.equationHeader ≤ lines.length)
    (hlen' : settings.equationHeader ≤ lines'.length)
    (hglobals : Matched (ExportError.Corresponds same) Eq
      (Declarations.globals ((Line.numbered 1 lines).drop settings.equationHeader))
      (Declarations.globals ((Line.numbered 1 lines').drop settings.equationHeader))) :
    Matched (ExportError.Corresponds same) (StatementLog.Corresponds same)
      (StatementLog.ofLines settings lines) (StatementLog.ofLines settings lines') := by
  rw [StatementLog.ofLines, StatementLog.ofLines, if_neg (Nat.not_lt.mpr hlen),
    if_neg (Nat.not_lt.mpr hlen')]
  refine hglobals.bind ?_
  rintro globals _ rfl
  refine (h.matched_behind (by decide)).bind fun _ _ hbody => ?_
  refine (hbody.matched_block _).bind fun constants constants' hconstants => ?_
  refine (h.matched_behind (by decide)).bind fun _ _ hbody => ?_
  refine hbody.matched_dynamicsAfterBlank.bind fun dynamics dynamics' hdynamics => ?_
  refine (h.matched_behind (by decide)).bind fun _ _ hbody => ?_
  refine hbody.matched_writeBlock.bind ?_
  rintro ⟨outputNames, written⟩ ⟨_, written'⟩ ⟨rfl, hwritten⟩
  refine (h.matched_behind (by decide)).bind fun _ _ hbody => ?_
  refine (hbody.matched_block _).bind fun evaluated evaluated' hevaluated => ?_
  exact .ok ⟨rfl, rfl, ((hconstants.append hdynamics).append hwritten).append hevaluated⟩

def IsPadded (t t' : Text) : Prop :=
  ∃ before after : Text, (∀ c ∈ before ++ after, isBlank c = true) ∧ t' = before ++ t ++ after

theorem IsPadded.trim_eq {t t' : Text} (h : IsPadded t t') : t.trim = t'.trim := by
  obtain ⟨before, after, hblank, rfl⟩ := h
  obtain ⟨hbefore, hafter⟩ := List.forall_mem_append.mp hblank
  exact (Text.trim_append_of_blank hbefore hafter t).symm

namespace Declarations

variable {lines lines' : List Line}

theorem gather_eq_of_forall₂ {complete : Text → Bool}
    (h : List.Forall₂ (Line.Corresponds same) lines lines') (text : Text) :
    gather complete text (lines.map (·.text)) = gather complete text (lines'.map (·.text)) := by
  induction h generalizing text with
  | nil => rfl
  | @cons l l' ls ls' hl _ ih =>
    have htrim : l.text.trim = l'.text.trim := hl.trimmed
    rw [List.map_cons, List.map_cons, gather, gather, htrim, ih]

theorem number_getLastD (h : List.Forall₂ (Line.Corresponds same) lines lines') {l l' : Line}
    (hl : same l.number l'.number) :
    same (lines.getLastD l).number (lines'.getLastD l').number := by
  induction h generalizing l l' with
  | nil => exact hl
  | cons hfirst _ ih =>
    rw [List.getLastD_cons, List.getLastD_cons]
    exact ih hfirst.number

theorem matched_globals (h : List.Forall₂ (Line.Corresponds same) lines lines') :
    Matched (ExportError.Corresponds same) Eq (globals lines) (globals lines') := by
  fun_induction globals lines generalizing lines' with
  | case1 =>
    cases h
    rw [globals]
    exact .error (.refl _)
  | case2 line rest hm =>
    obtain ⟨line', rest', hl, hrest, rfl⟩ := List.forall₂_cons_left_iff.mp h
    rw [globals, ← hl.trimmed, if_pos hm]
    exact .ok rfl
  | case3 line rest hm hd ih =>
    obtain ⟨line', rest', hl, hrest, rfl⟩ := List.forall₂_cons_left_iff.mp h
    rw [globals, ← hl.trimmed, if_neg hm, hd]
    exact ih hrest
  | case4 line rest hm start hd hg =>
    have hg : gather isComplete start (rest.map (·.text)) = none := by simpa using hg
    obtain ⟨line', rest', hl, hrest, rfl⟩ := List.forall₂_cons_left_iff.mp h
    rw [globals, ← hl.trimmed, if_neg hm, hd]
    simp only [← gather_eq_of_forall₂ hrest, hg]
    exact .error (.unfinishedStatement (number_getLastD hrest hl.number))
  | case5 line rest hm start hd declaration used hg ih =>
    have hg : gather isComplete start (rest.map (·.text)) = some (declaration, used) := by
      simpa using hg
    obtain ⟨line', rest', hl, hrest, rfl⟩ := List.forall₂_cons_left_iff.mp h
    rw [globals, ← hl.trimmed, if_neg hm, hd]
    simp only [← gather_eq_of_forall₂ hrest, hg]
    refine (ih (List.forall₂_drop used hrest)).bind ?_
    rintro names _ rfl
    exact .ok rfl

end Declarations

theorem Line.text_headD_numbered (n : Nat) (ts : List Text) (l : Line) :
    ((numbered n ts).headD l).text = ts.headD l.text := by
  cases ts <;> rfl

/-- Lines with a statement on them. None is blank or a marker of a section, and the last is the only
one that ends in a semicolon. -/
structure Wrapping where
  /-- The lines before the last. -/
  front : List Text
  last : Text
  front_open : ∀ t ∈ front, endsStatement t.trim = false
  last_ends : endsStatement last.trim = true
  plain : ∀ t ∈ front ++ [last], IsPlain t.trim

namespace Wrapping

variable (w : Wrapping)

def lines : List Text := w.front ++ [w.last]

def first : Text := w.front.headD w.last

def statement : Text := w.lines.flatMap Text.trim

/-- Both hold the same statement, and are told from write statements alike. -/
structure Rewraps (w w' : Wrapping) : Prop where
  statement : w.statement = w'.statement
  writes : w.first.trim.startsWith EquationFile.writing =
    w'.first.trim.startsWith EquationFile.writing
  writesOutputs : w.first.trim.startsWith EquationFile.writingOutputs =
    w'.first.trim.startsWith EquationFile.writingOutputs

theorem first_mem_lines : w.first ∈ w.lines := by
  rw [first, lines]
  cases w.front <;> simp

def range (n : Nat) : StatementRange where
  front := Line.numbered n w.front
  last := ⟨n + w.front.length, w.last⟩
  front_open l hl := w.front_open l.text (Line.text_mem_of_mem_numbered hl)
  last_ends := w.last_ends
  first_ne_nil := by
    rw [Line.trimmed, Line.text_headD_numbered]
    exact (w.plain _ w.first_mem_lines).1

theorem lines_range (n : Nat) : (w.range n).lines = Line.numbered n w.lines :=
  (Line.numbered_append n w.front [w.last]).symm

theorem text_first_range (n : Nat) : (w.range n).first.text = w.first :=
  Line.text_headD_numbered ..

theorem text_range (n : Nat) : (w.range n).text = w.statement := by
  rw [StatementRange.text, lines_range, ← flatMap_trim_map_text, Line.map_text_numbered, statement]

theorem plain_range (n : Nat) : ∀ l ∈ (w.range n).lines, IsPlain l.trimmed := by
  intro l hl
  rw [lines_range] at hl
  exact w.plain l.text (Line.text_mem_of_mem_numbered hl)

variable {w} {w' : Wrapping}

theorem Rewraps.range (h : w.Rewraps w') (n n' : Nat) :
    (w.range n).Rewraps (fun _ _ => True) (w'.range n') where
  number := trivial
  text := by rw [text_range, text_range, h.statement]
  plain := w.plain_range n
  plain' := w'.plain_range n'
  writes := by
    rw [Line.trimmed, Line.trimmed, text_first_range, text_first_range]
    exact h.writes
  writesOutputs := by
    rw [Line.trimmed, Line.trimmed, text_first_range, text_first_range]
    exact h.writesOutputs

end Wrapping

theorem Line.forall₂_numbered {R : Text → Text → Prop} {ts ts' : List Text} (n : Nat)
    (hR : ∀ t t', R t t' → t.trim = t'.trim) (h : List.Forall₂ R ts ts') :
    List.Forall₂ (Line.Corresponds Eq) (numbered n ts) (numbered n ts') := by
  induction h generalizing n with
  | nil => exact .nil
  | cons ht _ ih => exact .cons ⟨rfl, hR _ _ ht⟩ (ih (n + 1))

theorem ExportError.Corresponds.eq {e e' : ExportError} (h : e.Corresponds Eq e') : e = e' := by
  cases h with
  | refl => rfl
  | unfinishedStatement h => rw [h]
  | malformedLine h => rw [h]

theorem LoggedStatement.Corresponds.eq {e e' : LoggedStatement} (h : e.Corresponds Eq e') :
    e = e' := by
  obtain ⟨origin, statement, line⟩ := e
  obtain ⟨rfl, rfl, rfl⟩ := h
  rfl

theorem StatementLog.Corresponds.eq {log log' : StatementLog} (h : log.Corresponds Eq log') :
    log = log' := by
  obtain ⟨globals, outputNames, statements⟩ := log
  obtain ⟨rfl, rfl, hstatements⟩ := h
  have heq : statements = log'.statements :=
    List.forall₂_eq_eq_eq ▸ hstatements.imp fun _ _ => LoggedStatement.Corresponds.eq
  rw [heq]

namespace Cursor

variable {settings : ExportSettings} {c : Cursor}

/-- Blanks at the ends of lines change neither the log nor the errors. -/
theorem log_eq_of_padded {c' : Cursor} (h : List.Forall₂ IsPadded c.lines c'.lines) :
    c.log settings = c'.log settings := by
  have hlen : c.lines.length = c'.lines.length := h.length_eq
  have hlines := Line.forall₂_numbered 1 (fun _ _ => IsPadded.trim_eq) h
  rw [log_eq, log_eq]
  by_cases hheader : settings.equationHeader ≤ c.lines.length
  · have hmatched := (ReadAlike.of_forall₂ hlines).matched_ofLines settings hheader (hlen ▸ hheader)
      (Declarations.matched_globals (List.forall₂_drop _ hlines))
    exact (hmatched.imp (fun _ _ => ExportError.Corresponds.eq)
      fun _ _ => StatementLog.Corresponds.eq).eq
  · rw [StatementLog.ofLines, StatementLog.ofLines, if_pos (Nat.not_le.mp hheader),
      if_pos (Nat.not_le.mp (hlen ▸ hheader)), hlen]

theorem exists_log_of_rewraps {w w' : Wrapping} {head back names : List Text} {log : StatementLog}
    (hlines : c.lines = head ++ w.lines ++ back)
    (hbanner : Declarations.globals ((Line.numbered 1 head).drop settings.equationHeader) =
      .ok names) (hw : w.Rewraps w') (h : c.log settings = .ok log) (position : Nat) :
    ∃ log', Cursor.log settings ⟨head ++ w'.lines ++ back, position⟩ = .ok log' ∧
      log.SameButLines log' := by
  have halike : ReadAlike (fun _ _ => True) (Line.numbered 1 (head ++ w.lines ++ back))
      (Line.numbered 1 (head ++ w'.lines ++ back)) := by
    simp only [Line.numbered_append]
    refine ((ReadAlike.numbered 1 1 head).append ?_).append (.numbered _ _ back)
    have hstatement := ReadAlike.statement (hw.range (1 + head.length) (1 + head.length)) .nil
    rwa [Wrapping.lines_range, Wrapping.lines_range, List.append_nil, List.append_nil] at hstatement
  have hread (more : List Text) := Declarations.globals_drop_append hbanner more
  simp only [List.append_assoc] at halike hlines ⊢
  obtain ⟨hlen, hglobals⟩ := hread (w.lines ++ back)
  obtain ⟨-, hglobals'⟩ := hread (w'.lines ++ back)
  have hmatched := halike.matched_ofLines settings
    (hlen.trans (by simp)) (hlen.trans (by simp)) (by rw [hglobals, hglobals']; exact .ok rfl)
  rw [log_eq, hlines] at h
  rw [h] at hmatched
  obtain ⟨log', hlog, hsame⟩ := hmatched.exists_ok
  exact ⟨log', (log_eq settings _).trans hlog, hsame⟩

/-- The log of a file does not depend on how a statement behind the banner is wrapped, but for the
numbers of lines, nor on blanks at the ends of lines. -/
theorem log_of_rewrapped (settings : ExportSettings) (c : Cursor) :
    (∀ (w w' : Wrapping) (head back names : List Text) (log : StatementLog) (position : Nat),
      c.lines = head ++ w.lines ++ back →
      Declarations.globals ((Line.numbered 1 head).drop settings.equationHeader) = .ok names →
      w.Rewraps w' → c.log settings = .ok log →
      ∃ log', Cursor.log settings ⟨head ++ w'.lines ++ back, position⟩ = .ok log' ∧
        log.SameButLines log') ∧
    ∀ c' : Cursor, List.Forall₂ IsPadded c.lines c'.lines → c.log settings = c'.log settings :=
  ⟨fun _ _ _ _ _ _ position hlines hbanner hw h =>
    exists_log_of_rewraps hlines hbanner hw h position, fun _ => log_eq_of_padded⟩

def writtenOnTwoLines : Wrapping where
  front := ["writef(Fptr[1], a, x,".toList]
  last := "  y, _NAN);".toList
  front_open := by decide
  last_ends := by decide
  plain := by decide +kernel

def writtenOnThreeLines : Wrapping where
  front := ["writef(Fptr[1], a".toList, "\t, x,y".toList]
  last := ", _NAN); ".toList
  front_open := by decide
  last_ends := by decide
  plain := by decide +kernel

theorem log_of_rewrapped_wrappedFile :
    wrappedFile = wrappedFile.take 19 ++ writtenOnTwoLines.lines ++ wrappedFile.drop 21 ∧
      Declarations.globals (Line.numbered 1 (wrappedFile.take 19)) =
        .ok ["z[3]".toList, "g".toList] ∧
      writtenOnTwoLines.Rewraps writtenOnThreeLines ∧
      List.Forall₂ IsPadded wrappedFile (wrappedFile.map fun l => ' ' :: l ++ ['\t']) ∧
      Cursor.log { equationHeader := 0 } ⟨wrappedFile, 5⟩ = .ok wrappedLog ∧
      (∃ log', Cursor.log { equationHeader := 0 }
          ⟨wrappedFile.take 19 ++ writtenOnThreeLines.lines ++ wrappedFile.drop 21, 0⟩ = .ok log' ∧
        wrappedLog.SameButLines log') ∧
      Cursor.log { equationHeader := 0 } ⟨wrappedFile.map fun l => ' ' :: l ++ ['\t'], 0⟩ =
        .ok wrappedLog := by
  have hlines : wrappedFile =
      wrappedFile.take 19 ++ writtenOnTwoLines.lines ++ wrappedFile.drop 21 :=
    rfl
  have hbanner : Declarations.globals (Line.numbered 1 (wrappedFile.take 19)) =
      .ok ["z[3]".toList, "g".toList] := by
    decide +kernel
  have hw : writtenOnTwoLines.Rewraps writtenOnThreeLines := ⟨by decide, by decide, by decide⟩
  have hpadded : List.Forall₂ IsPadded wrappedFile (wrappedFile.map fun l => ' ' :: l ++ ['\t']) :=
    List.forall₂_map_right_iff.mpr
      (List.forall₂_same.mpr fun _ _ => ⟨[' '], ['\t'], by simp [isBlank, blankCodePoints], rfl⟩)
  obtain ⟨hrewrapped, hblanks⟩ := log_of_rewrapped { equationHeader := 0 } ⟨wrappedFile, 5⟩
  exact ⟨hlines, hbanner, hw, hpadded, log_wrappedFile,
    hrewrapped _ _ _ _ _ _ 0 hlines hbanner hw log_wrappedFile,
    (hblanks ⟨_, 0⟩ hpadded).symm.trans log_wrappedFile⟩

end Cursor

end MotionExport
