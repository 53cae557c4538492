import Mathlib.Data.List.Perm.Basic
import MotionExport.Proofs.Export.CursorReading
import MotionExport.Proofs.Export.Locality
import MotionExport.Proofs.Export.ReadAlike

/-! # The order of sections

The sections of an equations file may stand in any order, with any other lines between them. Every
section is looked for by its own marker from the top of the file and read to its own end, so the log
differs in the numbers of lines only.
-/

namespace MotionExport

def Marker.openings : List Marker := [.constants, .afterStep, .writeOutput, .evaluateOutput]

def FreeOf (m : Marker) (lines : List Text) : Prop := ∀ t ∈ lines, m.isOn t.trim = false

instance (m : Marker) (lines : List Text) : Decidable (FreeOf m lines) :=
  inferInstanceAs (Decidable (∀ t ∈ lines, m.isOn t.trim = false))

/-- No section begins in the lines. -/
def IsFiller (lines : List Text) : Prop := ∀ m ∈ Marker.openings, FreeOf m lines

instance (lines : List Text) : Decidable (IsFiller lines) :=
  inferInstanceAs (Decidable (∀ m ∈ Marker.openings, FreeOf m lines))

def EndsBlank (lines : List Text) : Prop := ∃ t ∈ lines.getLast?, t.trim = []

instance (lines : List Text) : Decidable (EndsBlank lines) :=
  inferInstanceAs (Decidable (∃ t ∈ lines.getLast?, t.trim = []))

theorem EndsBlank.numbered {ts : List Text} (h : EndsBlank ts) (n : Nat) :
    ∃ l ∈ (Line.numbered n ts).getLast?, l.trimmed = [] := by
  obtain ⟨t, ht, hblank⟩ := h
  rw [← Line.map_text_numbered n ts, List.getLast?_map] at ht
  obtain ⟨l, hl, rfl⟩ := Option.map_eq_some_iff.mp ht
  exact ⟨l, hl, hblank⟩

open EquationFile

/-- The head of an equations file and its four sections, each of which is read as a file of its own.
A section is a line with its marker and what follows it. The dynamics are read up to the marker at
their end, and the other sections end with a blank line. -/
structure SectionedFile (settings : ExportSettings) where
  head : List Text
  opening : Marker → Text
  body : Marker → List Text
  globals : List Text
  outputNames : List Text
  constants : List LoggedStatement
  dynamics : List LoggedStatement
  written : List LoggedStatement
  evaluated : List LoggedStatement
  head_free : IsFiller head
  opening_isOn : ∀ m ∈ Marker.openings, m.isOn (opening m).trim = true
  body_free : ∀ m ∈ Marker.openings, ∀ m' ∈ Marker.openings, m ≠ m' → FreeOf m (body m')
  head_read : Declarations.globals ((Line.numbered 1 head).drop settings.equationHeader) =
    .ok globals
  constants_read : block settings.terminator .constants (Line.numbered 2 (body .constants)) =
    .ok constants
  dynamics_read : dynamicsAfterBlank settings.terminator (Line.numbered 2 (body .afterStep)) =
    .ok dynamics
  written_read : writeBlock settings.terminator (Line.numbered 2 (body .writeOutput)) =
    .ok (outputNames, written)
  evaluated_read : block settings.terminator .evaluateOutput
    (Line.numbered 2 (body .evaluateOutput)) = .ok evaluated
  constants_end : EndsBlank (body .constants)
  written_end : EndsBlank (body .writeOutput)
  evaluated_end : EndsBlank (body .evaluateOutput)

namespace SectionedFile

variable {settings : ExportSettings} (f : SectionedFile settings)

def sectionLines (m : Marker) : List Text := f.opening m :: f.body m

def log : StatementLog where
  globals := f.globals
  outputNames := f.outputNames
  statements := f.constants ++ f.dynamics ++ f.written ++ f.evaluated

/-- The lines are the head, and then the sections in some order with other lines around them. -/
def Arranges (lines : List Text) : Prop :=
  ∃ fillers parts : List (List Text), (∀ part ∈ fillers, IsFiller part) ∧
    parts.Perm (Marker.openings.map f.sectionLines ++ fillers) ∧ lines = f.head ++ parts.flatten

variable {f} {m m' : Marker} {lines : List Text}

theorem isOn_of_ne (hm : m ∈ Marker.openings) (hm' : m' ∈ Marker.openings) (hne : m ≠ m') {t : Text}
    (h : m'.isOn t = true) : m.isOn t = false := by
  have htexts : ∀ m ∈ Marker.openings, ∀ m' ∈ Marker.openings, m ≠ m' →
      m ≠ .main ∧ m' ≠ .main ∧ m'.text ≠ m.text := by
    decide
  obtain ⟨hmain, hmain', htext⟩ := htexts m hm m' hm' hne
  rw [Cursor.isOn_eq hmain', decide_eq_true_iff] at h
  rw [Cursor.isOn_eq hmain, h, decide_eq_false htext]

theorem freeOf_sectionLines (hm : m ∈ Marker.openings) (hm' : m' ∈ Marker.openings)
    (hne : m ≠ m') : FreeOf m (f.sectionLines m') :=
  List.forall_mem_cons.mpr
    ⟨isOn_of_ne hm hm' hne (f.opening_isOn m' hm'), f.body_free m hm m' hm' hne⟩

theorem exists_split (h : f.Arranges lines) (hm : m ∈ Marker.openings) :
    ∃ front back, lines = front ++ f.sectionLines m ++ back ∧ FreeOf m front := by
  obtain ⟨fillers, parts, hfillers, hparts, rfl⟩ := h
  have hothers : parts.Perm
      (f.sectionLines m :: ((Marker.openings.erase m).map f.sectionLines ++ fillers)) :=
    hparts.trans (((List.perm_cons_erase hm).map f.sectionLines).append_right fillers)
  obtain ⟨before, after, rfl⟩ := List.append_of_mem (hothers.mem_iff.mpr List.mem_cons_self)
  refine ⟨f.head ++ before.flatten, after.flatten, by simp, ?_⟩
  -- What stands around the section are the other sections and the fillers, in some order.
  have hrest := (List.perm_middle.symm.trans hothers).cons_inv
  have hnodup : Marker.openings.Nodup := by decide
  refine List.forall_mem_append.mpr ⟨f.head_free m hm, fun t ht => ?_⟩
  obtain ⟨part, hpart, ht⟩ := List.mem_flatten.mp ht
  rcases List.mem_append.mp (hrest.subset (List.mem_append_left after hpart)) with h | h
  · obtain ⟨m', hm', rfl⟩ := List.mem_map.mp h
    obtain ⟨hne, hm'⟩ := hnodup.mem_erase_iff.mp hm'
    exact freeOf_sectionLines hm hm' hne.symm t ht
  · exact hfillers part h m hm t ht

theorem behind_append {front rest : List Line} {line : Line}
    (hfree : ∀ l ∈ front, m.isOn l.trimmed = false) (hline : m.isOn line.trimmed = true) :
    behind m (front ++ line :: rest) = .ok rest := by
  rw [behind, List.dropWhile_append_of_pos fun l hl => by simp [hfree l hl],
    List.dropWhile_cons_of_neg (by simp [hline])]

theorem exists_behind (h : f.Arranges lines) (hm : m ∈ Marker.openings) :
    ∃ n back, behind m (Line.numbered 1 lines) = .ok (Line.numbered n (f.body m) ++ back) := by
  obtain ⟨front, back, rfl, hfree⟩ := exists_split h hm
  refine ⟨1 + front.length + 1, Line.numbered (1 + (front ++ f.sectionLines m).length) back, ?_⟩
  rw [Line.numbered_append, Line.numbered_append, List.append_assoc]
  exact behind_append (fun l hl => hfree _ (Line.text_mem_of_mem_numbered hl)) (f.opening_isOn m hm)

variable {α : Type} {R : α → α → Prop} {a : α}

/-- What a reader makes of a section by itself it makes of it in a file. -/
theorem exists_read (h : f.Arranges lines) (hm : m ∈ Marker.openings)
    {read : List Line → Except ExportError α} (hread : read (Line.numbered 2 (f.body m)) = .ok a)
    (halike : ∀ ls ls', ReadAlike (fun _ _ => True) ls ls' →
      Matched (ExportError.Corresponds fun _ _ => True) R (read ls) (read ls'))
    (hlocal : ∀ n b more, read (Line.numbered n (f.body m)) = .ok b →
      read (Line.numbered n (f.body m) ++ more) = .ok b) :
    ∃ body b, behind m (Line.numbered 1 lines) = .ok body ∧ read body = .ok b ∧ R a b := by
  obtain ⟨n, back, hbehind⟩ := exists_behind h hm
  have hmatched := halike _ _ (ReadAlike.numbered 2 n (f.body m))
  rw [hread] at hmatched
  obtain ⟨b, hb, hR⟩ := hmatched.exists_ok
  exact ⟨_, b, hbehind, hlocal n b back hb, hR⟩

end SectionedFile

open SectionedFile

/-- A file is read in whatever order its sections stand, and whatever stands between them. The log
differs in the numbers of lines only. -/
theorem Cursor.log_arranged {settings : ExportSettings} {f : SectionedFile settings}
    {lines : List Text} (h : f.Arranges lines) (position : Nat) :
    ∃ log, Cursor.log settings ⟨lines, position⟩ = .ok log ∧ f.log.SameButLines log := by
  obtain ⟨constantLines, constants, hbehindConstants, hconstants, hsameConstants⟩ :=
    exists_read h (by decide) f.constants_read (fun _ _ h => h.matched_block .constants)
      fun n _ more hb => block_append hb (f.constants_end.numbered n) more
  obtain ⟨dynamicLines, dynamics, hbehindDynamics, hdynamics, hsameDynamics⟩ :=
    exists_read h (by decide) f.dynamics_read (fun _ _ h => h.matched_dynamicsAfterBlank)
      fun _ _ more hb => dynamicsAfterBlank_append hb more
  obtain ⟨writeLines, ⟨outputNames, written⟩, hbehindWritten, hwritten, hnames, hsameWritten⟩ :=
    exists_read h (by decide) f.written_read (fun _ _ h => h.matched_writeBlock)
      fun n _ more hb => writeBlock_append hb (f.written_end.numbered n) more
  obtain ⟨evaluateLines, evaluated, hbehindEvaluated, hevaluated, hsameEvaluated⟩ :=
    exists_read h (by decide) f.evaluated_read (fun _ _ h => h.matched_block .evaluateOutput)
      fun n _ more hb => block_append hb (f.evaluated_end.numbered n) more
  have hglobals : settings.equationHeader ≤ lines.length ∧
      Declarations.globals ((Line.numbered 1 lines).drop settings.equationHeader) =
        .ok f.globals := by
    obtain ⟨_, parts, -, -, rfl⟩ := h
    obtain ⟨hlen, hread⟩ := Declarations.globals_drop_append f.head_read parts.flatten
    exact ⟨hlen.trans (by simp), hread⟩
  have hstatements : SameRecords (fun _ _ => True) f.log.statements
      (constants ++ dynamics ++ written ++ evaluated) :=
    .append (.append (.append hsameConstants hsameDynamics) hsameWritten) hsameEvaluated
  refine ⟨⟨f.globals, outputNames, constants ++ dynamics ++ written ++ evaluated⟩, ?_,
    rfl, hnames, hstatements⟩
  rw [log_eq, StatementLog.ofLines, if_neg (Nat.not_lt.mpr hglobals.1)]
  dsimp only
  rw [hglobals.2, hbehindConstants, hbehindDynamics, hbehindWritten, hbehindEvaluated]
  simp only [ok_bind, hconstants, hdynamics, hwritten, hevaluated]

def leverBody : Marker → List Text
  | .constants => ["z[1] = k +".toList, "  2;".toList, []]
  | .afterStep => ["x = VAR[0];".toList, [], "/* Quantities to be specified */".toList,
      "u = 1;".toList, [], "xp = z[1];".toList,
      "/* Update derivative array prior to integration step */".toList]
  | .writeOutput => ["writef(Fptr[1], a, x,".toList, "  _NAN);".toList, "e = x;".toList, []]
  | .evaluateOutput => ["y = k;".toList, []]
  | _ => []

def leverSections : SectionedFile { equationHeader := 1 } where
  head := ["/* lever */".toList, "double z[1],k;".toList, "/* 0 MAIN 0 */".toList]
  opening := Marker.text
  body := leverBody
  globals := ["z[1]".toList, "k".toList]
  outputNames := ["x".toList]
  constants := [⟨.constants, "z[1] = k +2".toList, 2⟩]
  dynamics := [⟨.specified, "u = 1".toList, 5⟩, ⟨.motion, "xp = z[1]".toList, 7⟩]
  written := [⟨.writeOutput, "e = x".toList, 4⟩]
  evaluated := [⟨.evaluateOutput, "y = k".toList, 2⟩]
  head_free := by decide +kernel
  opening_isOn := by decide +kernel
  body_free := by decide +kernel
  head_read := by decide +kernel
  constants_read := by decide +kernel
  dynamics_read := by decide +kernel
  written_read := by decide +kernel
  evaluated_read := by decide +kernel
  constants_end := by decide +kernel
  written_end := by decide +kernel
  evaluated_end := by decide +kernel

/-- The sections in another order, with a statement that does not end before the first of them and
an end of the dynamics behind the last. -/
def shuffledParts : List (List Text) :=
  [["x = 1 +".toList], leverSections.sectionLines .evaluateOutput,
    leverSections.sectionLines .writeOutput, leverSections.sectionLines .afterStep, [[]],
    leverSections.sectionLines .constants, [Marker.beforeStep.text]]

theorem log_arranged_shuffledParts :
    leverSections.Arranges (leverSections.head ++ shuffledParts.flatten) ∧
      ∃ log, Cursor.log { equationHeader := 1 }
          ⟨leverSections.head ++ shuffledParts.flatten, 3⟩ = .ok log ∧
        leverSections.log.SameButLines log := by
  have h : leverSections.Arranges (leverSections.head ++ shuffledParts.flatten) := by
    refine ⟨[["x = 1 +".toList], [[]], [Marker.beforeStep.text]], shuffledParts, ?_, ?_, rfl⟩
    · decide +kernel
    · decide +kernel
  exact ⟨h, Cursor.log_arranged h 3⟩

end MotionExport
