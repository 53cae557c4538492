import Mathlib.Data.List.Nodup
import MotionExport.Artifact.Report
import MotionExport.Proofs.Text.Pieces

/-! # Sections of a report

A report that is read back has the sections that it was written with. For this an entry must not
look like something else: a blank line, a header, or two lines.
-/

namespace MotionExport

namespace ReportSection

theorem mem_all (s : ReportSection) : s ∈ all := by
  cases s <;> decide

theorem title_injective {s s' : ReportSection} (h : s.title = s'.title) : s = s' :=
  List.inj_on_of_nodup_map (by decide : (all.map title).Nodup) (mem_all s) (mem_all s') h

def header (s : ReportSection) : Text := '[' :: (s.title ++ [']'])

theorem newline_not_mem_header (s : ReportSection) : '\n' ∉ s.header := by
  cases s <;> decide

theorem trim_header (s : ReportSection) : s.header.trim = s.header := by
  refine Text.trim_eq_self ?_ ?_
  · rintro c ⟨⟩
    decide
  · intro c hc
    rw [header, ← List.cons_append, List.getLast?_concat] at hc
    cases hc
    decide

end ReportSection

namespace Report

/-- A line that is an entry for the reader. -/
structure IsEntryLine (line : Text) : Prop where
  oneLine : '\n' ∉ line
  notBlank : line.trim ≠ []
  notHeader : ¬ (line.trim.startsWith ['['] = true ∧ line.trim.endsWith ']' = true)

instance (line : Text) : Decidable (IsEntryLine line) :=
  decidable_of_iff ('\n' ∉ line ∧ line.trim ≠ [] ∧
      ¬ (line.trim.startsWith ['['] = true ∧ line.trim.endsWith ']' = true))
    ⟨fun ⟨h₁, h₂, h₃⟩ => ⟨h₁, h₂, h₃⟩, fun ⟨h₁, h₂, h₃⟩ => ⟨h₁, h₂, h₃⟩⟩

theorem header?_eq_some_iff {line name : Text} :
    header? line = some name ↔ '[' :: (name ++ [']']) = line := by
  simp only [header?, Option.bind_eq_some_iff, Text.after?_eq_some_iff, Text.before?_eq_some_iff]
  constructor
  · rintro ⟨rest, rfl, rfl⟩
    rfl
  · rintro rfl
    exact ⟨_, rfl, rfl⟩

theorem IsEntryLine.header? {line : Text} (h : IsEntryLine line) : header? line.trim = none := by
  rw [Option.eq_none_iff_forall_ne_some]
  intro name hname
  apply h.notHeader
  rw [← header?_eq_some_iff.mp hname, ← List.cons_append]
  exact ⟨rfl, Text.endsWith_concat⟩

variable {lines front : List Text} {sections : List (Text × List Text)}

theorem collect_header (h : collect lines = (front, sections)) (s : ReportSection) :
    collect (s.header :: lines) = ([], (s.title, front) :: sections) := by
  have hheader : header? s.header = some s.title := header?_eq_some_iff.mpr rfl
  rw [collect, h]
  simp only [hheader]

theorem collect_entries {entries : List Text} (hentries : ∀ l ∈ entries, IsEntryLine l)
    (h : collect lines = (front, sections)) :
    collect (entries.map Text.trim ++ [] :: lines) =
      (entries.map Text.trim ++ front, sections) := by
  induction entries with
  | nil =>
    rw [List.map_nil, List.nil_append, collect, h]
    rfl
  | cons l entries ih =>
    obtain ⟨hl, hentries⟩ := List.forall_mem_cons.mp hentries
    rw [List.map_cons, List.cons_append, collect, ih hentries, hl.header?]
    exact if_neg hl.notBlank

end Report

namespace Document

open Report

variable {d : Document} {s : ReportSection} {ss : List ReportSection}

def sectionText (d : Document) (s : ReportSection) : Text :=
  s.header ++ '\n' :: ((d.reportLines s).flatMap (· ++ ['\n']) ++ ['\n'])

theorem report_eq (d : Document) : d.report = ReportSection.all.flatMap d.sectionText := by
  have hsection (s : ReportSection) : d.sectionText s =
      ['['] ++ s.title ++ "]\n".toList ++ (d.reportLines s).flatMap (· ++ ['\n']) ++ ['\n'] := by
    simp [sectionText, ReportSection.header]
  rw [report, funext hsection]

def sectionRead (d : Document) (s : ReportSection) : Text × List Text :=
  (s.title, (d.reportLines s).map Text.trim)

theorem trimmedLines_sectionText (h : ∀ l ∈ d.reportLines s, IsEntryLine l) (t : Text) :
    Text.trimmedLines (d.sectionText s ++ t) =
      s.header :: ((d.reportLines s).map Text.trim ++ [] :: Text.trimmedLines t) := by
  have hnewline : Text.trimmedLines ('\n' :: t) = [] :: Text.trimmedLines t :=
    Text.trimmedLines_append List.not_mem_nil t
  rw [sectionText, List.append_assoc, List.cons_append, List.append_assoc,
    Text.trimmedLines_append s.newline_not_mem_header, s.trim_header,
    Text.trimmedLines_flatMap fun l hl => (h l hl).oneLine, List.singleton_append, hnewline]

/-- Sections are read one after the other. Whatever stands behind them, if it starts with a header,
is not mixed up with them. -/
theorem collect_sections (h : ∀ s ∈ ss, ∀ l ∈ d.reportLines s, IsEntryLine l) {t : Text}
    {sections : List (Text × List Text)} (ht : collect (Text.trimmedLines t) = ([], sections)) :
    collect (Text.trimmedLines (ss.flatMap d.sectionText ++ t)) =
      ([], ss.map d.sectionRead ++ sections) := by
  induction ss with
  | nil => exact ht
  | cons s ss ih =>
    obtain ⟨hs, hss⟩ := List.forall_mem_cons.mp h
    rw [List.flatMap_cons, List.append_assoc, trimmedLines_sectionText hs,
      collect_header (collect_entries hs (ih hss)), List.append_nil]
    rfl

theorem exists_collect_sectionText (d : Document) (s : ReportSection) (t : Text) :
    ∃ sections, collect (Text.trimmedLines (d.sectionText s ++ t)) = ([], sections) := by
  rw [sectionText, List.append_assoc, List.cons_append,
    Text.trimmedLines_append s.newline_not_mem_header, s.trim_header]
  exact ⟨_, collect_header rfl s⟩

theorem lookup?_title (hs : s ∈ ss) (sections : List (Text × List Text)) :
    Text.lookup? s.title (ss.map d.sectionRead ++ sections) =
      some ((d.reportLines s).map Text.trim) := by
  induction ss with
  | nil => cases hs
  | cons s' ss ih =>
    rw [List.map_cons, List.cons_append, sectionRead, Text.lookup?]
    by_cases heq : s = s'
    · rw [heq, if_pos rfl]
    · rw [if_neg fun h => heq (ReportSection.title_injective h).symm]
      exact ih (List.mem_of_ne_of_mem heq hs)

theorem lines?_of_leading {next : ReportSection} (hall : ss ++ [next] <+: ReportSection.all)
    (h : ∀ s ∈ ss, ∀ l ∈ d.reportLines s, IsEntryLine l) (hs : s ∈ ss) :
    (ofText d.report).lines? s.title = some ((d.reportLines s).map Text.trim) := by
  obtain ⟨rest, hall⟩ := hall
  obtain ⟨sections, hrest⟩ :=
    exists_collect_sectionText d next (rest.flatMap d.sectionText)
  have hreport : d.report =
      ss.flatMap d.sectionText ++ (d.sectionText next ++ rest.flatMap d.sectionText) := by
    rw [report_eq, ← hall, List.append_assoc, List.flatMap_append, List.singleton_append,
      List.flatMap_cons]
  have hsections : (ofText d.report).sections = ss.map d.sectionRead ++ sections := by
    rw [hreport]
    exact congrArg Prod.snd (collect_sections h hrest)
  rw [lines?, hsections]
  exact lookup?_title hs sections

end Document

namespace Equation

variable {e : Equation} {statement : Text} {line : Nat}

/-- The sides of an equation are trimmed, and the left one has a character but no equals sign. -/
structure IsParsed (e : Equation) : Prop where
  lhs_ne_nil : e.lhs ≠ []
  trim_lhs : e.lhs.trim = e.lhs
  equals_not_mem : '=' ∉ e.lhs
  trim_rhs : e.rhs.trim = e.rhs

theorem isParsed_of_parse (h : parse statement line = .ok e) : e.IsParsed := by
  rw [parse] at h
  split at h
  · contradiction
  · rename_i lhs rhs hsplit
    split at h
    · contradiction
    · rename_i hne
      cases h
      refine ⟨hne, lhs.trim_trim, fun hmem => ?_, rhs.trim_trim⟩
      exact Text.not_mem_of_splitOnce hsplit (Text.mem_of_mem_trim hmem)

theorem IsParsed.trim_expression (h : e.IsParsed) : e.expression.trim = e.expression := by
  refine Text.trim_trimEnd_of_prefix (u := e.rhs) ?_
  rw [h.trim_rhs]
  cases hcut : Text.before? [';'] e.rhs with
  | none => exact List.prefix_rfl
  | some rhs => exact ⟨_, Text.before?_eq_some_iff.mp hcut⟩

/-- The text of an equation, once trimmed, still has the expression behind its equals sign. The
blank between them is gone if there is no expression. -/
theorem IsParsed.exists_trim_toText (h : e.IsParsed) :
    ∃ tail, e.toText.trim = e.lhs ++ " =".toList ++ tail ∧ tail.trim = e.expression := by
  have hfirst : ∀ t, ∀ c ∈ (e.lhs ++ t).head?, isBlank c = false := by
    intro t c hc
    obtain ⟨d, s, hlhs, hd⟩ := Text.exists_trim_eq_cons (h.trim_lhs.symm ▸ h.lhs_ne_nil)
    rw [h.trim_lhs] at hlhs
    rw [hlhs] at hc
    cases hc
    exact hd
  by_cases hnil : e.expression = []
  · refine ⟨[], ?_, hnil.symm⟩
    have htext : e.toText = e.lhs ++ " =".toList ++ [' '] := by simp [toText, hnil]
    rw [htext, Text.trim_concat_blank (by decide), List.append_nil]
    apply Text.trim_eq_self (hfirst _)
    intro c hc
    rw [List.getLast?_append_of_ne_nil e.lhs (by decide)] at hc
    cases hc
    decide
  · refine ⟨' ' :: e.expression, ?_, ?_⟩
    · have htext : e.toText = e.lhs ++ " =".toList ++ ' ' :: e.expression := by simp [toText]
      rw [htext, List.append_assoc]
      apply Text.trim_eq_self (hfirst _)
      intro c hc
      obtain ⟨s, d, hs, hd⟩ := Text.exists_trim_eq_concat (h.trim_expression.symm ▸ hnil)
      rw [h.trim_expression] at hs
      rw [hs, ← List.cons_append, ← List.append_assoc, ← List.append_assoc,
        List.getLast?_concat] at hc
      cases hc
      exact hd
    · rw [Text.trim_cons_blank (by decide), h.trim_expression]

theorem IsParsed.parse_trim_toText (h : e.IsParsed) (number : Nat) :
    parse e.toText.trim number = .ok ⟨e.lhs, e.expression⟩ := by
  obtain ⟨tail, htext, htail⟩ := h.exists_trim_toText
  have hmem : '=' ∉ e.lhs ++ [' '] := by
    rw [List.mem_append, not_or]
    exact ⟨h.equals_not_mem, by decide⟩
  have hsplit : Text.splitOnce ['='] e.toText.trim = some (e.lhs ++ [' '], tail) := by
    rw [htext, ← Text.splitOnce_append hmem [] tail]
    simp
  rw [parse, hsplit]
  simp only [Text.trim_concat_blank (c := ' ') (by decide), h.trim_lhs, htail, if_neg h.lhs_ne_nil]

end Equation

namespace Document

open Report

def equations? (d : Document) : ReportSection → Option (List Equation)
  | .constants => some d.constants
  | .inputs => some d.inputs
  | .motion => some d.motion
  | .dependents => some d.dependents
  | .outputs => some d.outputs
  | .linear => some d.linear
  | .name | .integration | .parameters | .states | .outputNames => none

theorem reportLines_of_equations? {d : Document} {s : ReportSection} {equations : List Equation}
    (h : d.equations? s = some equations) : d.reportLines s = equations.map Equation.toText := by
  cases s <;> cases h <;> rfl

/-- What the report `r` keeps of a document: its sections in their order, each with its entries, and
the equations without their terminators. -/
structure IsKeptIn (d : Document) (r : Report) : Prop where
  sections : r.sections =
    ReportSection.all.map fun s => (s.title, (d.reportLines s).map Text.trim)
  names : r.sectionNames = ReportSection.all.map ReportSection.title
  entries : ∀ s : ReportSection, r.lines? s.title = some ((d.reportLines s).map Text.trim)
  equations : ∀ s equations, d.equations? s = some equations →
    (∀ e ∈ equations, ∃ statement line, Equation.parse statement line = .ok e) →
    ∃ lines, r.lines? s.title = some lines ∧ ∀ number,
      lines.map (fun line => Equation.parse line number) =
        equations.map fun e => .ok ⟨e.lhs, e.expression⟩

/-- Nothing of a report is lost, merged or moved if each entry is a line of its own kind. -/
theorem isKeptIn_report (d : Document) (h : ∀ s, ∀ l ∈ d.reportLines s, IsEntryLine l) :
    d.IsKeptIn (ofText d.report) := by
  have hcollect : collect (Text.trimmedLines (ReportSection.all.flatMap d.sectionText ++ [])) =
      ([], ReportSection.all.map d.sectionRead ++ []) :=
    collect_sections (fun s _ => h s) rfl
  have hsections : (ofText d.report).sections = ReportSection.all.map d.sectionRead := by
    rw [ofText, d.report_eq]
    rw [List.append_nil, List.append_nil] at hcollect
    exact congrArg Prod.snd hcollect
  have hentries (s : ReportSection) :
      (ofText d.report).lines? s.title = some ((d.reportLines s).map Text.trim) := by
    rw [lines?, hsections, ← List.append_nil (ReportSection.all.map d.sectionRead)]
    exact lookup?_title s.mem_all []
  refine ⟨hsections, ?_, hentries, ?_⟩
  · rw [sectionNames, hsections, List.map_map]
    rfl
  · intro s equations hs hparsed
    refine ⟨_, hentries s, fun number => ?_⟩
    rw [reportLines_of_equations? hs, List.map_map, List.map_map]
    apply List.map_congr_left
    intro e he
    obtain ⟨statement, line, hparse⟩ := hparsed e he
    exact (Equation.isParsed_of_parse hparse).parse_trim_toText number

end Document

/-- A document with a right side that is only a terminator, a comparison, brackets in a line that is
no header, and sections without entries. -/
def latchDocument : Document where
  name := "Latch".toList
  integration := default
  parameters := [⟨"k".toList, .zero, some "[N/m]".toList⟩]
  states := [⟨"x".toList, .zero, none⟩, ⟨"v".toList, .nan, some "m/s".toList⟩]
  globals := []
  auxCount := 0
  constants := [⟨"z[1]".toList, ";".toList⟩]
  motion := [⟨"xp".toList, "v;".toList⟩, ⟨"vp".toList, "-k*(x == 0);".toList⟩]
  inputs := []
  dependents := []
  outputNames := ["x".toList]
  outputs := []
  linear := [⟨"A[0][1]".toList, "1".toList⟩]

theorem latchDocument_isKeptIn_report :
    (∀ s, ∀ l ∈ latchDocument.reportLines s, Report.IsEntryLine l) ∧
      latchDocument.IsKeptIn (Report.ofText latchDocument.report) :=
  have h (s : ReportSection) : ∀ l ∈ latchDocument.reportLines s, Report.IsEntryLine l := by
    cases s <;> decide +kernel
  ⟨h, latchDocument.isKeptIn_report h⟩

end MotionExport
